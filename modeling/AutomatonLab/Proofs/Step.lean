import AutomatonLab.Decision

/-!
# One step of a computation

`Step` says what one step of an automaton is, by one rule for each case : over an input the
automaton halts at the end, accepting in a final state, or where no transition is eligible; on a
tape it halts in a final state, accepting, or where no transition is eligible. Otherwise it takes
the first eligible transition, where a pushdown automaton prefers those that read a symbol
(`Configuration.firstEligible?`).

`Configuration.decision` follows these rules if the automaton has labels of its own formalism
(`Automaton.Typed`) and the cursor is not negative : `exists_decision` is the existence of a
decision, `step_iff_decision` the agreement. So a step exists and is unique (`exists_step`,
`Step.unique`).
-/

namespace AutomatonLab

/-- The formalism is one of the three, and every label belongs to it. -/
structure Automaton.Typed (a : Automaton) : Prop where
  known : a.formalism ∈ Formalism.all
  labels : ∀ t ∈ a.transitions, t.label.formalism = a.formalism

/-- Whether all labels are of the formalism of an automaton can be decided. -/
instance (a : Automaton) : Decidable a.Typed :=
  decidable_of_iff (a.formalism ∈ Formalism.all ∧
      ∀ t ∈ a.transitions, t.label.formalism = a.formalism)
    ⟨fun h => ⟨h.1, h.2⟩, fun h => ⟨h.known, h.labels⟩⟩

/-- A typed automaton is of one of the three formalisms. -/
theorem Automaton.Typed.cases {a : Automaton} (ha : a.Typed) :
    a.formalism = .fa ∨ a.formalism = .pda ∨ a.formalism = .tm := by
  simpa [Formalism.all] using ha.known

namespace Configuration

/-- The symbol of the input at the cursor, none at the end of the input. -/
def next? (c : Configuration) : Option Text :=
  c.input[c.cursor.toNat]?.map fun s => [s]

/-- The transition leaves the state, asks for `symbol`, and pops nothing or the top of the stack. -/
def eligible (c : Configuration) (symbol : Text) (t : Transition) : Bool :=
  c.state == some t.source &&
    match t.label with
    | .fa s => s == symbol
    | .pda input pop _ => input == symbol && (pop == Label.epsilon || c.stack.top? == some pop)
    | .tm read _ _ => read == symbol

/-- The first transition, in the order of declaration, that is eligible for `symbol`. A pushdown
automaton that has none takes the first one that reads nothing. -/
def firstEligible? (a : Automaton) (c : Configuration) (symbol : Text) : Option Transition :=
  let first (s : Text) := a.transitions.find? (c.eligible s)
  if a.formalism = .pda then (first symbol).or (first Label.epsilon) else first symbol

end Configuration

/-- One step from the configuration `c` : the transition that is taken, if any, the configuration
afterwards, and the status. -/
inductive Step (a : Automaton) (c : Configuration) :
    Option Transition → Configuration → Status → Prop where
  | endOfInput : a.formalism ≠ .tm → c.next? = none →
      Step a c none c (if c.isFinal a then .accepted else .rejected)
  | blocked {symbol : Text} : a.formalism ≠ .tm → c.next? = some symbol →
      c.firstEligible? a symbol = none → Step a c none c .rejected
  | readFa {symbol read : Text} {t : Transition} : a.formalism = .fa → c.next? = some symbol →
      c.firstEligible? a symbol = some t → t.label = .fa read →
      Step a c (some t) { c with state := some t.target, cursor := c.cursor + 1 } .running
  | readPda {symbol input pop push : Text} {t : Transition} {popped : Stack} :
      a.formalism = .pda → c.next? = some symbol → c.firstEligible? a symbol = some t →
      t.label = .pda input pop push →
      popped = (if pop = Label.epsilon then c.stack else c.stack.pop) →
      Step a c (some t)
        { c with
          state := some t.target
          cursor := if input = Label.epsilon then c.cursor else c.cursor + 1
          stack := if push = Label.epsilon then popped else popped.push push } .running
  | final : a.formalism = .tm → c.isFinal a = true → Step a c none c .accepted
  | stuck : a.formalism = .tm → c.isFinal a = false → c.firstEligible? a c.scanned = none →
      Step a c none c .stuck
  | readTm {read write direction : Text} {t : Transition} : a.formalism = .tm →
      c.isFinal a = false → c.firstEligible? a c.scanned = some t →
      t.label = .tm read write direction →
      Step a c (some t)
        { c with
          state := some t.target
          tape := c.tape.write c.head write
          head := Tape.move c.head direction } .running

/-! ## The choice of a transition -/

namespace Configuration

variable {a : Automaton} {c : Configuration}

/-- What is looked at on the input is the next symbol, as long as the cursor is not negative. -/
theorem symbol?_eq_next? (hc : 0 ≤ c.cursor) : c.symbol? = .ok c.next? := by
  obtain ⟨n, hn⟩ := Int.eq_ofNat_of_zero_le hc
  have hinside : c.isInside = true := by
    simp only [isInside, decide_eq_true_eq]
    omega
  simp [symbol?, hinside, remaining, next?, hn, List.head?_drop]

/-- The input is at its end exactly if there is no next symbol. -/
theorem atEnd_eq_isNone (hc : 0 ≤ c.cursor) : c.atEnd = c.next?.isNone := by
  obtain ⟨n, hn⟩ := Int.eq_ofNat_of_zero_le hc
  rw [Bool.eq_iff_iff]
  simp [atEnd, next?, hn]

/-- The labels of a typed automaton can all be looked at. -/
theorem readable_of_typed (ha : a.Typed) (state : Text) :
    Choice.readable a.formalism a.transitions state = true := by
  simp only [Choice.readable, List.all_eq_true, Bool.or_eq_true, beq_iff_eq]
  exact fun t ht => Or.inr (ha.labels t ht)

/-- Without a state no transition is eligible. -/
theorem not_eligible_of_state (hs : c.state = none) (symbol : Text) (t : Transition) :
    c.eligible symbol t = false := by
  simp [eligible, hs]

theorem firstEligible?_of_state (hs : c.state = none) (symbol : Text) :
    c.firstEligible? a symbol = none := by
  have hfind : ∀ s, a.transitions.find? (c.eligible s) = none := fun s =>
    List.find?_eq_none.2 fun t _ => by simp [not_eligible_of_state hs]
  simp [firstEligible?, hfind]

/-- The transition that is chosen is one of the automaton. -/
theorem mem_of_firstEligible? {symbol : Text} {t : Transition}
    (h : c.firstEligible? a symbol = some t) : t ∈ a.transitions := by
  simp only [firstEligible?] at h
  split at h
  · rcases Option.or_eq_some_iff.1 h with h | ⟨-, h⟩ <;> exact List.mem_of_find?_eq_some h
  · exact List.mem_of_find?_eq_some h

/-- A finite automaton chooses among the eligible transitions, in their order. -/
theorem applicableFa_eq_filter (hl : ∀ t ∈ a.transitions, t.label.formalism = .fa) {state : Text}
    (hs : c.state = some state) (symbol : Text) :
    Choice.applicableFa a.transitions state (some symbol) =
      a.transitions.filter (c.eligible symbol) := by
  refine List.filter_congr fun t ht => ?_
  have htyped := hl t ht
  cases hlabel : t.label with
  | fa read => grind [eligible]
  | pda input pop push => simp [hlabel, Label.formalism] at htyped
  | tm read write direction => simp [hlabel, Label.formalism] at htyped

/-- A Turing machine chooses among the eligible transitions, in their order. -/
theorem applicableTm_eq_filter (hl : ∀ t ∈ a.transitions, t.label.formalism = .tm) {state : Text}
    (hs : c.state = some state) (symbol : Text) :
    Choice.applicableTm a.transitions state (some symbol) =
      a.transitions.filter (c.eligible symbol) := by
  refine List.filter_congr fun t ht => ?_
  have htyped := hl t ht
  cases hlabel : t.label with
  | fa read => simp [hlabel, Label.formalism] at htyped
  | pda input pop push => simp [hlabel, Label.formalism] at htyped
  | tm read write direction => grind [eligible]

/-- A transition of a pushdown automaton matches exactly if it is eligible. -/
theorem matchesPda_eq_eligible {t : Transition} (ht : t.label.formalism = .pda) {state : Text}
    (hs : c.state = some state) (symbol : Text) :
    Choice.matchesPda state c.stack.top? (some symbol) t = c.eligible symbol t := by
  cases hlabel : t.label with
  | fa read => simp [hlabel, Label.formalism] at ht
  | pda input pop push => grind [Choice.matchesPda, eligible]
  | tm read write direction => simp [hlabel, Label.formalism] at ht

/-- The two filters of a pushdown automaton list the eligible transitions of either kind. If the
symbol is the text for no symbol, the two kinds are one. -/
theorem head?_applicablePda (hl : ∀ t ∈ a.transitions, t.label.formalism = .pda) {state : Text}
    (hs : c.state = some state) (symbol : Text) :
    (Choice.applicablePda a.transitions state (some symbol) c.stack.top?).head? =
      (a.transitions.find? (c.eligible symbol)).or
        (a.transitions.find? (c.eligible Label.epsilon)) := by
  have hsilent : a.transitions.filter (Choice.silentPda state c.stack.top?) =
      a.transitions.filter (c.eligible Label.epsilon) :=
    List.filter_congr fun t ht => matchesPda_eq_eligible (hl t ht) hs _
  rw [Choice.applicablePda, hsilent, List.head?_append, List.head?_filter, List.head?_filter]
  by_cases he : symbol = Label.epsilon
  · have hnone : a.transitions.find? (Choice.consumesPda state (some symbol) c.stack.top?) = none :=
      List.find?_eq_none.2 fun t _ => by simp [Choice.consumesPda, he]
    rw [hnone, he, Option.none_or, Option.or_self]
  · have hconsumes : a.transitions.filter (Choice.consumesPda state (some symbol) c.stack.top?) =
        a.transitions.filter (c.eligible symbol) :=
      List.filter_congr fun t ht => by
        simp [Choice.consumesPda, he, matchesPda_eq_eligible (hl t ht) hs]
    rw [← List.head?_filter, hconsumes, List.head?_filter]

/-- The filter of each formalism lists the eligible transitions. -/
theorem head?_applicable (ha : a.Typed) {state : Text} (hs : c.state = some state)
    (symbol : Text) :
    ((Choice.applicable? a.formalism a.transitions state (some symbol)
        c.stack.top?).getD []).head? = c.firstEligible? a symbol := by
  rcases ha.cases with hf | hf | hf
  · have hl : ∀ t ∈ a.transitions, t.label.formalism = .fa := fun t ht => (ha.labels t ht).trans hf
    rw [hf, firstEligible?, if_neg (by simp [hf])]
    simp only [Choice.applicable?, Option.getD_some, applicableFa_eq_filter hl hs,
      List.head?_filter]
  · have hl : ∀ t ∈ a.transitions, t.label.formalism = .pda := fun t ht => (ha.labels t ht).trans hf
    rw [hf, firstEligible?, if_pos hf]
    exact head?_applicablePda hl hs symbol
  · have hl : ∀ t ∈ a.transitions, t.label.formalism = .tm := fun t ht => (ha.labels t ht).trans hf
    rw [hf, firstEligible?, if_neg (by simp [hf])]
    simp only [Choice.applicable?, Option.getD_some, applicableTm_eq_filter hl hs,
      List.head?_filter]

/-- A typed automaton always has a symbol to look at, or is known to have none. -/
theorem exists_visible? (ha : a.Typed) (hc : 0 ≤ c.cursor) :
    ∃ symbol, c.visible? a.formalism = .ok symbol := by
  rcases ha.cases with hf | hf | hf
  · exact ⟨c.next?, by rw [hf, visible?, symbol?_eq_next? hc]⟩
  · exact ⟨c.next?, by rw [hf, visible?, symbol?_eq_next? hc]⟩
  · exact ⟨some c.scanned, by rw [hf, visible?]⟩

/-- The transitions that apply are those that the formalism chooses for the visible symbol. -/
theorem applicable_of_visible (ha : a.Typed) {state : Text} (hs : c.state = some state)
    {symbol : Option Text} (hv : c.visible? a.formalism = .ok symbol) :
    c.applicable a =
      .ok ((Choice.applicable? a.formalism a.transitions state symbol c.stack.top?).getD []) := by
  rw [applicable, hv, hs]
  exact Choice.applicable_of_readable (readable_of_typed ha state) symbol c.stack.top?

theorem applicable_of_state (ha : a.Typed) (hc : 0 ≤ c.cursor) (hs : c.state = none) :
    c.applicable a = .ok [] := by
  obtain ⟨symbol, hv⟩ := exists_visible? ha hc
  rw [applicable, hv, hs]
  rfl

/-- The transitions that apply can be looked at. -/
theorem exists_applicable (ha : a.Typed) (hc : 0 ≤ c.cursor) : ∃ ts, c.applicable a = .ok ts := by
  cases hs : c.state with
  | none => exact ⟨[], applicable_of_state ha hc hs⟩
  | some state =>
    obtain ⟨symbol, hv⟩ := exists_visible? ha hc
    exact ⟨_, applicable_of_visible ha hs hv⟩

/-- The transition that a decision considers is the first eligible one. -/
theorem chosen?_eq (ha : a.Typed) {symbol : Text}
    (hv : c.visible? a.formalism = .ok (some symbol)) :
    c.chosen? a = .ok (c.firstEligible? a symbol) := by
  rw [chosen?]
  cases hs : c.state with
  | none =>
    rw [applicable, hv, hs, firstEligible?_of_state hs]
    rfl
  | some state =>
    rw [applicable_of_visible ha hs hv, ← head?_applicable ha hs symbol]
    rfl

end Configuration

/-! ## Decisions follow the rules -/

namespace Decision

/-- The transition that a decision takes, if it takes one. -/
def transition? : Decision → Option Transition
  | take t => some t
  | halt _ => none

/-- The configuration after a decision. -/
def after (c : Configuration) : Decision → Configuration
  | take t => c.apply t
  | halt _ => c

/-- The status after a decision. -/
def status : Decision → Status
  | take _ => .running
  | halt status => status

end Decision

variable {a : Automaton} {c c' : Configuration} {t : Option Transition} {s : Status}

/-- A run that takes the chosen transition, if there is one, halts with the verdict for none. -/
theorem eq_of_halt_chosen {v : Status}
    (h : (do
      match ← c.chosen? a with
      | some t => return .take t
      | none => return .halt v) = (.ok (.halt s) : Except Fault Decision)) : v = s := by
  rcases hchosen : c.chosen? a with fault | u | u
  · rw [hchosen] at h
    cases h
  · rw [hchosen] at h
    exact Decision.halt.inj (Except.ok.inj h)
  · rw [hchosen] at h
    cases h

/-- A decision to halt at the input comes with a verdict. -/
theorem isTerminal_of_halt_input (h : c.decisionOnInput a = .ok (.halt s)) :
    s.isTerminal = true := by
  unfold Configuration.decisionOnInput at h
  split at h
  · obtain rfl := Decision.halt.inj (Except.ok.inj h)
    split <;> rfl
  · obtain rfl := eq_of_halt_chosen h
    rfl

/-- A decision to halt at the tape comes with a verdict. -/
theorem isTerminal_of_halt_tape (h : c.decisionOnTape a = .ok (.halt s)) :
    s.isTerminal = true := by
  unfold Configuration.decisionOnTape at h
  split at h
  · obtain rfl := Decision.halt.inj (Except.ok.inj h)
    rfl
  · obtain rfl := eq_of_halt_chosen h
    rfl

/-- A run halts with a verdict, whatever the labels are. -/
theorem isTerminal_of_halt (h : c.decision a = .ok (.halt s)) : s.isTerminal = true := by
  unfold Configuration.decision at h
  split at h
  · exact isTerminal_of_halt_input h
  · exact isTerminal_of_halt_input h
  · exact isTerminal_of_halt_tape h
  · cases h

/-- Without a tape the decision follows from the rest of the input. -/
theorem decision_of_ne_tm (ha : a.Typed) (hc : 0 ≤ c.cursor) (hf : a.formalism ≠ .tm) :
    c.decision a = .ok (match c.next? with
      | none => .halt (if c.isFinal a then .accepted else .rejected)
      | some symbol => (c.firstEligible? a symbol).elim (.halt .rejected) .take) := by
  have hdecision : c.decision a = c.decisionOnInput a := by
    rcases ha.cases with h | h | h
    · simp only [Configuration.decision, h]
    · simp only [Configuration.decision, h]
    · exact absurd h hf
  rw [hdecision, Configuration.decisionOnInput, Configuration.atEnd_eq_isNone hc]
  cases hn : c.next? with
  | none => rfl
  | some symbol =>
    have hv : c.visible? a.formalism = .ok (some symbol) := by
      rcases ha.cases with h | h | h
      · rw [h, Configuration.visible?, Configuration.symbol?_eq_next? hc, hn]
      · rw [h, Configuration.visible?, Configuration.symbol?_eq_next? hc, hn]
      · exact absurd h hf
    rw [Configuration.chosen?_eq ha hv]
    simp only
    cases c.firstEligible? a symbol <;> rfl

/-- A Turing machine halts in its final states and where no transition is eligible. -/
theorem decision_of_tm (ha : a.Typed) (hf : a.formalism = .tm) :
    c.decision a = .ok (if c.isFinal a then .halt .accepted
      else (c.firstEligible? a c.scanned).elim (.halt .stuck) .take) := by
  have hv : c.visible? a.formalism = .ok (some c.scanned) := by rw [hf, Configuration.visible?]
  simp only [Configuration.decision, hf, Configuration.decisionOnTape]
  split
  · rfl
  · rw [Configuration.chosen?_eq ha hv]
    cases c.firstEligible? a c.scanned <;> rfl

/-- There is always a decision. -/
theorem exists_decision (ha : a.Typed) (hc : 0 ≤ c.cursor) : ∃ d, c.decision a = .ok d := by
  by_cases hf : a.formalism = .tm
  · exact ⟨_, decision_of_tm ha hf⟩
  · exact ⟨_, decision_of_ne_tm ha hc hf⟩

/-- The label of a transition that is taken decides which rule it is taken by. -/
theorem step_take {symbol : Text} {u : Transition} (ha : a.Typed) (hf : a.formalism ≠ .tm)
    (hn : c.next? = some symbol) (hu : c.firstEligible? a symbol = some u) :
    Step a c (some u) (c.apply u) .running := by
  have hlabel := ha.labels u (Configuration.mem_of_firstEligible? hu)
  cases hl : u.label with
  | fa read =>
    rw [Configuration.apply, hl]
    exact .readFa (by rw [← hlabel, hl]; rfl) hn hu hl
  | pda input pop push =>
    rw [Configuration.apply, hl]
    exact .readPda (by rw [← hlabel, hl]; rfl) hn hu hl rfl
  | tm read write direction => exact absurd (by rw [← hlabel, hl]; rfl) hf

theorem step_take_tm {u : Transition} (ha : a.Typed) (hf : a.formalism = .tm)
    (hfinal : c.isFinal a = false) (hu : c.firstEligible? a c.scanned = some u) :
    Step a c (some u) (c.apply u) .running := by
  have hlabel := (ha.labels u (Configuration.mem_of_firstEligible? hu)).trans hf
  cases hl : u.label with
  | fa read => simp [hl, Label.formalism] at hlabel
  | pda input pop push => simp [hl, Label.formalism] at hlabel
  | tm read write direction =>
    rw [Configuration.apply, hl]
    exact .readTm hf hfinal hu hl

/-- What is decided is a step. -/
theorem step_of_decision (ha : a.Typed) (hc : 0 ≤ c.cursor) {d : Decision}
    (hd : c.decision a = .ok d) : Step a c d.transition? (d.after c) d.status := by
  by_cases hf : a.formalism = .tm
  · rw [decision_of_tm ha hf] at hd
    obtain rfl := Except.ok.inj hd
    cases hfinal : c.isFinal a with
    | true => exact .final hf hfinal
    | false =>
      cases hu : c.firstEligible? a c.scanned with
      | none => exact .stuck hf hfinal hu
      | some u => exact step_take_tm ha hf hfinal hu
  · rw [decision_of_ne_tm ha hc hf] at hd
    obtain rfl := Except.ok.inj hd
    cases hn : c.next? with
    | none => exact .endOfInput hf hn
    | some symbol =>
      simp only
      cases hu : c.firstEligible? a symbol with
      | none => exact .blocked hf hn hu
      | some u => exact step_take ha hf hn hu

/-- Each rule determines the decision. -/
theorem Step.decision (ha : a.Typed) (hc : 0 ≤ c.cursor) (h : Step a c t c' s) :
    ∃ d, c.decision a = .ok d ∧ t = d.transition? ∧ c' = d.after c ∧ s = d.status := by
  cases h with
  | endOfInput hf hn =>
    exact ⟨_, by rw [decision_of_ne_tm ha hc hf, hn], rfl, rfl, rfl⟩
  | blocked hf hn hu =>
    exact ⟨.halt .rejected, by rw [decision_of_ne_tm ha hc hf, hn]; simp [hu], rfl, rfl, rfl⟩
  | @readFa symbol read u hf hn hu hl =>
    have hd : c.decision a = .ok (.take u) := by
      rw [decision_of_ne_tm ha hc (by simp [hf]), hn]
      simp [hu]
    exact ⟨_, hd, rfl, by rw [Decision.after, Configuration.apply, hl], rfl⟩
  | @readPda symbol input pop push u popped hf hn hu hl hp =>
    have hd : c.decision a = .ok (.take u) := by
      rw [decision_of_ne_tm ha hc (by simp [hf]), hn]
      simp [hu]
    exact ⟨_, hd, rfl, by rw [Decision.after, Configuration.apply, hl, hp], rfl⟩
  | final hf hfinal =>
    exact ⟨.halt .accepted, by simp [decision_of_tm ha hf, hfinal], rfl, rfl, rfl⟩
  | stuck hf hfinal hu =>
    exact ⟨.halt .stuck, by simp [decision_of_tm ha hf, hfinal, hu], rfl, rfl, rfl⟩
  | @readTm read write direction u hf hfinal hu hl =>
    have hd : c.decision a = .ok (.take u) := by simp [decision_of_tm ha hf, hfinal, hu]
    exact ⟨_, hd, rfl, by rw [Decision.after, Configuration.apply, hl], rfl⟩

/-- The steps of a configuration are its decision. -/
theorem step_iff_decision (ha : a.Typed) (hc : 0 ≤ c.cursor) : Step a c t c' s ↔
    ∃ d, c.decision a = .ok d ∧ t = d.transition? ∧ c' = d.after c ∧ s = d.status := by
  refine ⟨Step.decision ha hc, ?_⟩
  rintro ⟨d, hd, rfl, rfl, rfl⟩
  exact step_of_decision ha hc hd

/-- There is a step from every configuration. -/
theorem exists_step (ha : a.Typed) (hc : 0 ≤ c.cursor) : ∃ t c' s, Step a c t c' s := by
  obtain ⟨d, hd⟩ := exists_decision ha hc
  exact ⟨_, _, _, step_of_decision ha hc hd⟩

/-- A typed automaton is deterministic. -/
theorem Step.unique (ha : a.Typed) (hc : 0 ≤ c.cursor) {t' : Option Transition}
    {c'' : Configuration} {s' : Status} (h : Step a c t c' s) (h' : Step a c t' c'' s') :
    t = t' ∧ c' = c'' ∧ s = s' := by
  obtain ⟨d, hd, rfl, rfl, rfl⟩ := h.decision ha hc
  obtain ⟨d', hd', rfl, rfl, rfl⟩ := h'.decision ha hc
  obtain rfl := Except.ok.inj (hd.symm.trans hd')
  exact ⟨rfl, rfl, rfl⟩

/-! ## What a step keeps -/

/-- A step that takes a transition goes on, and a step that takes none halts where it is. -/
theorem Step.status_cases (h : Step a c t c' s) :
    (∃ u, t = some u) ∧ s = .running ∨ t = none ∧ s.isTerminal = true ∧ c' = c := by
  cases h with
  | endOfInput => exact Or.inr ⟨rfl, by split <;> rfl, rfl⟩
  | blocked => exact Or.inr ⟨rfl, rfl, rfl⟩
  | readFa => exact Or.inl ⟨⟨_, rfl⟩, rfl⟩
  | readPda => exact Or.inl ⟨⟨_, rfl⟩, rfl⟩
  | final => exact Or.inr ⟨rfl, rfl, rfl⟩
  | stuck => exact Or.inr ⟨rfl, rfl, rfl⟩
  | readTm => exact Or.inl ⟨⟨_, rfl⟩, rfl⟩

/-- A step with a transition gives no verdict. -/
theorem Step.running_of_taken {u : Transition} (h : Step a c (some u) c' s) : s = .running := by
  rcases h.status_cases with ⟨-, hrunning⟩ | ⟨hnone, -⟩
  · exact hrunning
  · cases hnone

/-- A step without a transition gives a verdict and changes nothing. -/
theorem Step.halted (h : Step a c none c' s) : s.isTerminal = true ∧ c' = c := by
  rcases h.status_cases with ⟨⟨u, hu⟩, -⟩ | ⟨-, hhalted⟩
  · cases hu
  · exact hhalted

theorem Step.input_eq (h : Step a c t c' s) : c'.input = c.input := by
  cases h <;> rfl

/-- The cursor never goes back. -/
theorem Step.cursor_le (h : Step a c t c' s) : c.cursor ≤ c'.cursor := by
  cases h with
  | readFa => exact Int.le_add_one (Int.le_refl _)
  | readPda => simp only; split <;> omega
  | _ => exact Int.le_refl _

/-! ## What a step takes -/

variable {u : Transition}

/-- A pushdown automaton may take a transition that reads nothing. -/
theorem Configuration.eligible_of_firstEligible? {symbol : Text}
    (h : c.firstEligible? a symbol = some u) : c.eligible symbol u = true ∨
      a.formalism = .pda ∧ c.eligible Label.epsilon u = true := by
  simp only [Configuration.firstEligible?] at h
  split at h
  case isTrue hf =>
    rcases Option.or_eq_some_iff.1 h with h | ⟨-, h⟩
    · exact Or.inl (List.find?_some h)
    · exact Or.inr ⟨hf, List.find?_some h⟩
  case isFalse => exact Or.inl (List.find?_some h)

theorem Configuration.state_of_firstEligible? {symbol : Text}
    (h : c.firstEligible? a symbol = some u) : c.state = some u.source := by
  rcases Configuration.eligible_of_firstEligible? h with h | ⟨-, h⟩ <;>
    exact beq_iff_eq.1 (Bool.and_eq_true_iff.1 h).1

/-- A transition that is taken joins the state before the step to the state after it. -/
theorem Step.joins (h : Step a c (some u) c' s) :
    u ∈ a.transitions ∧ c.state = some u.source ∧ c'.state = some u.target := by
  cases h with
  | readFa _ _ hu _ => exact ⟨Configuration.mem_of_firstEligible? hu,
      Configuration.state_of_firstEligible? hu, rfl⟩
  | readPda _ _ hu _ _ => exact ⟨Configuration.mem_of_firstEligible? hu,
      Configuration.state_of_firstEligible? hu, rfl⟩
  | readTm _ _ hu _ => exact ⟨Configuration.mem_of_firstEligible? hu,
      Configuration.state_of_firstEligible? hu, rfl⟩

/-- A finite automaton reads the symbol of the label that it takes. -/
theorem Step.taken_fa (hf : a.formalism = .fa) (h : Step a c (some u) c' s) :
    ∃ symbol, u.label = .fa symbol ∧ c.next? = some symbol ∧
      c' = { c with state := some u.target, cursor := c.cursor + 1 } := by
  cases h with
  | @readFa symbol read _ _ hn hu hl =>
    rcases Configuration.eligible_of_firstEligible? hu with he | ⟨hpda, -⟩
    · have hread : read = symbol := by simpa [Configuration.eligible, hl] using
        (Bool.and_eq_true_iff.1 he).2
      exact ⟨read, hl, hread ▸ hn, rfl⟩
    · simp [hf] at hpda
  | readPda hf' => simp [hf] at hf'
  | readTm hf' => simp [hf] at hf'

/-- A pushdown automaton reads the symbol of the label that it takes, or nothing, before the end of
the input, and finds the symbol that it pops on the top. -/
theorem Step.taken_pda (hf : a.formalism = .pda) (h : Step a c (some u) c' s) :
    ∃ input pop push, u.label = .pda input pop push ∧ c.next?.isSome = true ∧
      (input = Label.epsilon ∨ c.next? = some input) ∧
      (pop = Label.epsilon ∨ c.stack.top? = some pop) ∧ c' = c.apply u := by
  cases h with
  | readFa hf' => simp [hf] at hf'
  | @readPda symbol input pop push _ popped _ hn hu hl hp =>
    have hread : (input = symbol ∨ input = Label.epsilon) ∧
        (pop = Label.epsilon ∨ c.stack.top? = some pop) := by
      rcases Configuration.eligible_of_firstEligible? hu with he | ⟨-, he⟩
      all_goals
        have hmatch := (Bool.and_eq_true_iff.1 he).2
        simp only [hl, Bool.and_eq_true, beq_iff_eq, Bool.or_eq_true] at hmatch
      · exact ⟨Or.inl hmatch.1, hmatch.2⟩
      · exact ⟨Or.inr hmatch.1, hmatch.2⟩
    refine ⟨input, pop, push, hl, by rw [hn]; rfl, ?_, hread.2, ?_⟩
    · rcases hread.1 with rfl | rfl
      · exact Or.inr hn
      · exact Or.inl rfl
    · rw [Configuration.apply, hl, hp]
  | readTm hf' => simp [hf] at hf'

/-- A Turing machine writes and moves where it stands. -/
theorem Step.taken_tm (hf : a.formalism = .tm) (h : Step a c (some u) c' s) :
    ∃ read write direction, u.label = .tm read write direction ∧
      c' = { c with
        state := some u.target
        tape := c.tape.write c.head write
        head := Tape.move c.head direction } := by
  cases h with
  | readFa hf' => simp [hf] at hf'
  | readPda hf' => simp [hf] at hf'
  | readTm _ _ _ hl => exact ⟨_, _, _, hl, rfl⟩

end AutomatonLab
