import AutomatonLab.Proofs.AutomaticRun
import AutomatonLab.Proofs.Bounds
import Mathlib.Logic.Relation

/-!
# Accepting paths

A run takes the first transition that is eligible and never comes back to it. Beside it stands the
nondeterministic automaton with the same transitions : it moves from one `Stage` to another by any
transition that joins them, as the input and the stack admit (`Transition.Joins`), and accepts an
input if some path uses it up and ends in a final state (`Automaton.HasAcceptingPath`).

A step of a run is a move (`Step.move`), so a run that accepts has followed an accepting path. Where
no two transitions compete (`Automaton.DeterministicFa`, `Automaton.DeterministicPda`), a transition
that admits a move is the one that a run takes (`Transition.Joins.step`), so a run follows every
path, and accepts what has an accepting one (`history_accepts_path`).
-/

namespace AutomatonLab

/-- Where a nondeterministic automaton stands : the state, what is left of the input, and the stack
from its top. -/
structure Stage where
  state : Text
  rest : Text
  stack : List Text

/-- The transition joins one stage to another. What it reads is a single code point, the first that
is left, and what it pops is on the top. -/
structure Transition.Joins (t : Transition) (s s' : Stage) : Prop where
  source : s.state = t.source
  target : s'.state = t.target
  single : ∀ symbol, t.label.input? = some symbol → symbol.length = 1
  reads : s.rest = t.label.input?.getD [] ++ s'.rest
  stack : ∃ below, s.stack = t.label.pop?.toList ++ below ∧
    s'.stack = t.label.push?.toList ++ below

namespace Automaton

/-- Some transition joins one stage to another. -/
def Moves (a : Automaton) (s s' : Stage) : Prop :=
  ∃ t ∈ a.transitions, t.Joins s s'

/-- A path leads from the initial state, with the whole input and an empty stack, to a final state
where nothing is left of the input. -/
def HasAcceptingPath (a : Automaton) (w : Text) : Prop :=
  ∃ q ∈ a.states, q.initial = true ∧ ∃ f ∈ a.states, f.final = true ∧ ∃ stack,
    Relation.ReflTransGen a.Moves ⟨q.name, w, []⟩ ⟨f.name, [], stack⟩

/-- A finite automaton, of whose transitions no two share source and symbol. -/
structure DeterministicFa (a : Automaton) : Prop where
  formalism : a.formalism = .fa
  symbols : ∀ t ∈ a.transitions, ∀ u ∈ a.transitions, t.source = u.source →
    t.label.input? = u.label.input? → t = u

/-- A pushdown automaton that always reads, and of whose transitions two that share source and input
pop different symbols. -/
structure DeterministicPda (a : Automaton) : Prop where
  formalism : a.formalism = .pda
  reads : ∀ t ∈ a.transitions, t.label.input? ≠ none
  pops : ∀ t ∈ a.transitions, ∀ u ∈ a.transitions, t ≠ u → t.source = u.source →
    t.label.input? = u.label.input? →
    t.label.pop? ≠ none ∧ u.label.pop? ≠ none ∧ t.label.pop? ≠ u.label.pop?

end Automaton

/-- The configuration stands at the stage. -/
structure Configuration.At (c : Configuration) (s : Stage) : Prop where
  state : c.state = some s.state
  rest : c.input.drop c.cursor.toNat = s.rest
  stack : c.stack.items.reverse = s.stack

/-! ## A step is a move -/

namespace Stack

variable {s s' : Stack} {symbol : Text} {l : Label}

/-- With the top first, a stack of which a symbol is taken is that symbol and the rest. -/
theorem reverse_of_take? (h : s.take? symbol = some s') :
    s.items.reverse = symbol :: s'.items.reverse := by
  unfold take? at h
  split at h
  case isTrue htop =>
    obtain rfl := Option.some.inj h
    rw [pop, ← List.dropLast_append_getLast? symbol htop]
    simp
  case isFalse => cases h

/-- From the top, a label exchanges what it pops for what it pushes. -/
theorem reverse_of_replay? (h : s.replay? l = some s') : ∃ below : List Text,
    s.items.reverse = l.pop?.toList ++ below ∧ s'.items.reverse = l.push?.toList ++ below := by
  obtain ⟨popped, hpopped, rfl⟩ := Option.map_eq_some_iff.1 h
  refine ⟨popped.items.reverse, ?_, ?_⟩
  · cases hpop : l.pop? with
    | none =>
      rw [hpop] at hpopped
      obtain rfl := Option.some.inj hpopped
      rfl
    | some symbol =>
      rw [hpop] at hpopped
      exact reverse_of_take? hpopped
  · cases l.push? with
    | none => rfl
    | some symbol => simp [push]

end Stack

variable {a : Automaton} {c c' : Configuration} {t u : Transition} {v : Status} {s s' s'' : Stage}

theorem Automaton.ne_tm (hf : a.formalism = .fa ∨ a.formalism = .pda) : a.formalism ≠ .tm := by
  rcases hf with hf | hf <;> simp [hf]

/-- The symbol that is read has been found at the cursor. -/
theorem Step.next?_eq (hf : a.formalism = .fa ∨ a.formalism = .pda) (h : Step a c (some u) c' v)
    {symbol : Text} (hread : u.label.input? = some symbol) : c.next? = some symbol := by
  rcases hf with hf | hf
  · obtain ⟨read, hl, hn, -⟩ := h.taken_fa hf
    rw [hl, Label.input?] at hread
    rw [hn, hread]
  · obtain ⟨input, pop, push, hl, -, hn, -, -⟩ := h.taken_pda hf
    rw [hl, Label.input?] at hread
    split at hread
    case isTrue => cases hread
    case isFalse hne => rw [hn.resolve_left hne, hread]

/-- What is read next is the first symbol of the rest. -/
theorem Configuration.At.next?_eq (hs : c.At s) : c.next? = s.rest.head?.map fun x => [x] := by
  rw [next?, ← hs.rest, List.head?_drop]

/-- A step that takes a transition moves by it. -/
theorem Step.move (hf : a.formalism = .fa ∨ a.formalism = .pda) (hc : 0 ≤ c.cursor)
    (h : Step a c (some u) c' v) (hs : c.At s) : ∃ s', u.Joins s s' ∧ c'.At s' := by
  obtain ⟨-, hsource, htarget⟩ := h.joins
  have hcursor : c'.cursor.toNat = c.cursor.toNat + u.label.input?.toList.length := by
    rw [h.cursor_eq]
    omega
  refine ⟨⟨u.target, c'.input.drop c'.cursor.toNat, c'.stack.items.reverse⟩,
    ⟨?_, rfl, ?_, ?_, ?_⟩, htarget, rfl, rfl⟩
  · exact Option.some.inj (hs.state.symm.trans hsource)
  · intro symbol hread
    have hn := h.next?_eq hf hread
    obtain ⟨x, -, rfl⟩ := Option.map_eq_some_iff.1 hn
    rfl
  · rw [hcursor, h.input_eq, ← List.drop_drop, hs.rest]
    cases hread : u.label.input? with
    | none => rfl
    | some symbol =>
      have hn := h.next?_eq hf hread
      rw [hs.next?_eq] at hn
      obtain ⟨x, hx, rfl⟩ := Option.map_eq_some_iff.1 hn
      obtain ⟨rest, hrest⟩ := List.head?_eq_some_iff.1 hx
      simp [hrest]
  · rw [← hs.stack]
    exact Stack.reverse_of_replay? h.replay?_stack

/-- The transition decides where a move leads. -/
theorem Transition.Joins.unique (h : t.Joins s s') (h' : t.Joins s s'') : s' = s'' := by
  have hrest : s'.rest = s''.rest := List.append_cancel_left (h.reads.symm.trans h'.reads)
  obtain ⟨below, hbelow, hstack⟩ := h.stack
  obtain ⟨below', hbelow', hstack'⟩ := h'.stack
  obtain rfl := List.append_cancel_left (hbelow.symm.trans hbelow')
  obtain ⟨state, rest, stack⟩ := s'
  obtain ⟨state', rest', stack'⟩ := s''
  simp only [Stage.mk.injEq]
  exact ⟨h.target.trans h'.target.symm, hrest, hstack.trans hstack'.symm⟩

/-- Of a run without a tape, the states and stacks form a path through the automaton from its
initial state. -/
theorem Computation.path (hf : a.formalism = .fa ∨ a.formalism = .pda) (ha : a.WellFormed)
    {w : Text} {g : Nat} {es : List Event} (h : Computation a w g es c v) :
    ∃ q ∈ a.states, q.initial = true ∧ ∃ s, c.At s ∧
      Relation.ReflTransGen a.Moves ⟨q.name, w, []⟩ s := by
  induction h with
  | start =>
    obtain ⟨q₀, -, hstart⟩ := ha.exists_start
    obtain ⟨q, hq, hname, hinitial⟩ := ha.start?_eq_some_iff.1 hstart
    exact ⟨q, hq, hinitial, _, ⟨by rw [hname]; exact hstart, rfl, rfl⟩, .refl⟩
  | step h₀ _ hstep ih =>
    obtain ⟨q, hq, hinitial, s, hs, hpath⟩ := ih
    refine ⟨q, hq, hinitial, ?_⟩
    rcases hstep.status_cases with ⟨⟨u, rfl⟩, -⟩ | ⟨rfl, -, rfl⟩
    · obtain ⟨s', hmove, hs'⟩ := hstep.move hf h₀.cursor_nonneg hs
      exact ⟨s', hs', hpath.tail ⟨u, hstep.joins.1, hmove⟩⟩
    · exact ⟨s, hs, hpath⟩

/-- A computation that accepts has used up the input, in a final state. -/
theorem Computation.hasAcceptingPath (hf : a.formalism = .fa ∨ a.formalism = .pda)
    (ha : a.WellFormed) {w : Text} {g : Nat} {es : List Event}
    (h : Computation a w g es c .accepted) : a.HasAcceptingPath w := by
  obtain ⟨hfinal, hend⟩ := h.ends rfl
  obtain ⟨q, hq, hinitial, ⟨state, rest, stack⟩, hs, hpath⟩ := h.path hf ha
  have hempty : rest = [] := by
    have hlength := hend (Automaton.ne_tm hf)
    rw [← show _ = rest from hs.rest, List.drop_eq_nil_iff]
    omega
  have hstate : a.isFinal state = true := by
    simpa [Configuration.isFinal, hs.state] using hfinal
  obtain ⟨f, hf', rfl, hffinal⟩ := ha.isFinal_iff.1 hstate
  exact ⟨q, hq, hinitial, f, hf', hffinal, stack, hempty ▸ hpath⟩

/-! ## Where no transitions compete, a move is a step -/

namespace Automaton

/-- A finite or pushdown automaton that always reads. -/
theorem reads_of_deterministic (ha : a.Typed) (hdet : a.DeterministicFa ∨ a.DeterministicPda) :
    (a.formalism = .fa ∨ a.formalism = .pda) ∧ ∀ t ∈ a.transitions, t.label.input? ≠ none := by
  rcases hdet with hdet | hdet
  · exact ⟨Or.inl hdet.formalism, ha.reads_of_fa hdet.formalism⟩
  · exact ⟨Or.inr hdet.formalism, hdet.reads⟩

end Automaton

/-- What a transition that reads needs in order to be eligible. -/
theorem Configuration.eligible_iff_of_reads (hreads : t.label.input? ≠ none) (symbol : Text) :
    c.eligible symbol t = true ↔ c.state = some t.source ∧ t.label.input? = some symbol ∧
      ∀ top, t.label.pop? = some top → c.stack.top? = some top := by
  rw [eligible, Bool.and_eq_true, beq_iff_eq]
  cases hl : t.label with
  | fa read => simp [Label.input?, Label.pop?]
  | pda input pop push =>
    have hinput : input ≠ Label.epsilon := by
      rintro rfl
      exact hreads (by simp [hl, Label.input?])
    by_cases hpop : pop = Label.epsilon <;> simp [Label.input?, Label.pop?, hinput, hpop]
  | tm read write direction => exact absurd (by simp [hl, Label.input?]) hreads

/-- No two transitions are eligible at once, since the top of the stack is one symbol. -/
theorem Configuration.eq_of_eligible (ha : a.Typed)
    (hdet : a.DeterministicFa ∨ a.DeterministicPda) {symbol : Text} (ht : t ∈ a.transitions)
    (hu : u ∈ a.transitions) (hte : c.eligible symbol t = true)
    (hue : c.eligible symbol u = true) : t = u := by
  obtain ⟨-, hreads⟩ := Automaton.reads_of_deterministic ha hdet
  obtain ⟨htsource, htread, htpop⟩ := (eligible_iff_of_reads (hreads t ht) symbol).1 hte
  obtain ⟨husource, huread, hupop⟩ := (eligible_iff_of_reads (hreads u hu) symbol).1 hue
  have hsource : t.source = u.source := Option.some.inj (htsource.symm.trans husource)
  have hread : t.label.input? = u.label.input? := htread.trans huread.symm
  rcases hdet with hdet | hdet
  · exact hdet.symbols t ht u hu hsource hread
  · by_contra hne
    obtain ⟨htsome, husome, hdiffer⟩ := hdet.pops t ht u hu hne hsource hread
    obtain ⟨top, htop⟩ := Option.ne_none_iff_exists'.1 htsome
    obtain ⟨top', htop'⟩ := Option.ne_none_iff_exists'.1 husome
    obtain rfl := Option.some.inj ((htpop top htop).symm.trans (hupop top' htop'))
    exact hdiffer (htop.trans htop'.symm)

/-- In a deterministic automaton, a transition that can be taken is the one that is. -/
theorem Configuration.firstEligible?_eq (ha : a.Typed)
    (hdet : a.DeterministicFa ∨ a.DeterministicPda) {symbol : Text} (ht : t ∈ a.transitions)
    (hte : c.eligible symbol t = true) : c.firstEligible? a symbol = some t := by
  have hfind : a.transitions.find? (c.eligible symbol) = some t := by
    have hsome : (a.transitions.find? (c.eligible symbol)).isSome = true :=
      List.find?_isSome.2 ⟨t, ht, hte⟩
    obtain ⟨u, hu⟩ := Option.isSome_iff_exists.1 hsome
    rw [hu, eq_of_eligible ha hdet ht (List.mem_of_find?_eq_some hu) hte (List.find?_some hu)]
  simp only [firstEligible?, hfind, Option.some_or, ite_self]

/-- A transition that admits a move is the one that a run takes. -/
theorem Transition.Joins.step (ha : a.Typed) (hdet : a.DeterministicFa ∨ a.DeterministicPda)
    (hc : 0 ≤ c.cursor) (ht : t ∈ a.transitions) (h : t.Joins s s') (hs : c.At s) :
    ∃ c', Step a c (some t) c' .running ∧ c'.At s' ∧ s.rest.length = s'.rest.length + 1 := by
  obtain ⟨hf, hreads⟩ := Automaton.reads_of_deterministic ha hdet
  obtain ⟨symbol, hread⟩ := Option.ne_none_iff_exists'.1 (hreads t ht)
  obtain ⟨x, rfl⟩ := List.length_eq_one_iff.1 (h.single symbol hread)
  have hrest : s.rest = x :: s'.rest := by
    rw [h.reads, hread]
    rfl
  have hn : c.next? = some [x] := by
    rw [hs.next?_eq, hrest]
    rfl
  have hpop : ∀ top, t.label.pop? = some top → c.stack.top? = some top := by
    intro top htop
    obtain ⟨below, hbelow, -⟩ := h.stack
    rw [htop, ← hs.stack] at hbelow
    rw [Stack.top?, ← List.head?_reverse, hbelow]
    rfl
  have he : c.eligible [x] t = true :=
    (Configuration.eligible_iff_of_reads (hreads t ht) _).2
      ⟨by rw [hs.state, h.source], hread, hpop⟩
  have hstep := step_take ha (Automaton.ne_tm hf) hn
    (Configuration.firstEligible?_eq ha hdet ht he)
  obtain ⟨s'', hmove, hs''⟩ := hstep.move hf hc hs
  obtain rfl := h.unique hmove
  exact ⟨_, hstep, hs'', by rw [hrest, List.length_cons]⟩

/-- A run follows every path, and reads a symbol with each move of it. -/
theorem Computation.of_path (ha : a.Typed) (hdet : a.DeterministicFa ∨ a.DeterministicPda)
    {w q : Text} (hq : a.start? = some q)
    (h : Relation.ReflTransGen a.Moves ⟨q, w, []⟩ s) :
    ∃ es c v, Computation a w 1 es c v ∧ v.isTerminal = false ∧ c.At s ∧
      es.length + s.rest.length = w.length := by
  induction h with
  | refl => exact ⟨[], _, .ready, .start, rfl, ⟨hq, rfl, rfl⟩, Nat.zero_add _⟩
  | tail _ hmoves ih =>
    obtain ⟨es, c, v, hcomputation, hv, hs, hlength⟩ := ih
    obtain ⟨t, ht, hmove⟩ := hmoves
    obtain ⟨c', hstep, hs', hrest⟩ := hmove.step ha hdet hcomputation.cursor_nonneg ht hs
    refine ⟨_, c', _, hcomputation.step hv hstep, rfl, hs', ?_⟩
    rw [List.length_append, List.length_singleton]
    omega

/-- The end of an accepting path is the end of a computation. -/
theorem Computation.of_hasAcceptingPath (ha : a.Typed) (hwell : a.WellFormed)
    (hdet : a.DeterministicFa ∨ a.DeterministicPda) {w : Text} (h : a.HasAcceptingPath w) :
    ∃ es c, Computation a w 1 es c .accepted ∧ es.length = w.length + 1 := by
  obtain ⟨q, hq, hinitial, f, hf, hfinal, stack, hpath⟩ := h
  have hstart : a.start? = some q.name := hwell.start?_eq_some_iff.2 ⟨q, hq, rfl, hinitial⟩
  obtain ⟨es, c, v, hcomputation, hv, hs, hlength⟩ := Computation.of_path ha hdet hstart hpath
  have htm := Automaton.ne_tm (Automaton.reads_of_deterministic ha hdet).1
  have hends : c.isFinal a = true := by
    rw [Configuration.isFinal, hs.state]
    exact hwell.isFinal_iff.2 ⟨f, hf, rfl, hfinal⟩
  have hstep := Step.endOfInput htm (show c.next? = none by rw [hs.next?_eq]; rfl)
  rw [hends] at hstep
  refine ⟨_, c, hcomputation.step hv hstep, ?_⟩
  rw [List.length_append, List.length_singleton, ← hlength]
  rfl

/-! ## Runs that accept -/

/-- A run that accepts has followed an accepting path. If no two transitions compete, a run accepts
every input that has an accepting path, and is not longer than the input. -/
theorem history_accepts_path (ha : a.Typed) (hv : a.validate = .ok ())
    (hf : a.formalism = .fa ∨ a.formalism = .pda) (w : Text) :
    (∀ allowance es, (Run.history allowance a w none).result = .ok (es, .accepted) →
      a.HasAcceptingPath w) ∧
    (a.DeterministicFa ∨ a.DeterministicPda → a.HasAcceptingPath w →
      ∀ allowance ≥ w.length + 2,
        ∃ es, (Run.history allowance a w none).result = .ok (es, .accepted)) := by
  have hwell := Automaton.validate_eq_ok_iff.1 hv
  constructor
  · intro allowance es hresult
    obtain ⟨c, hcomputation, -⟩ := computation_of_history ha hv hresult
    exact hcomputation.hasAcceptingPath hf hwell
  · intro hdet hpath allowance hroom
    obtain ⟨es, c, hcomputation, hlength⟩ := Computation.of_hasAcceptingPath ha hwell hdet hpath
    exact ⟨es, history_of_halts ha hv hroom hcomputation rfl hlength⟩

/-- The run of the pushdown automaton shows the path, and the path gives the run back. -/
theorem history_accepts_path_anbn :
    Catalog.anbn.automaton.Typed ∧ Catalog.anbn.automaton.validate = .ok () ∧
      Catalog.anbn.automaton.DeterministicPda ∧ Catalog.anbn.automaton.HasAcceptingPath "ab" ∧
      ∃ es, (Run.history 4 Catalog.anbn.automaton "ab" none).result = .ok (es, .accepted) := by
  have ha : Catalog.anbn.automaton.Typed := by decide
  have hv : Catalog.anbn.automaton.validate = .ok () := rfl
  have hdet : Catalog.anbn.automaton.DeterministicPda := ⟨rfl, by decide, by decide⟩
  obtain ⟨hsound, hcomplete⟩ := history_accepts_path ha hv (Or.inr rfl) "ab"
  have hpath := hsound 4 _ rfl
  exact ⟨ha, hv, hdet, hpath, hcomplete (Or.inr hdet) hpath 4 (by decide)⟩

end AutomatonLab
