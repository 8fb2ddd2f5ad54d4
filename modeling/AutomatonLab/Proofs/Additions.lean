import AutomatonLab.Bench.Edit
import AutomatonLab.Proofs.Building
import AutomatonLab.Proofs.Step

/-!
# Building with refused calls

Somebody who builds an automaton may go on after a refused call. A call is granted if the automaton
allows it at its turn, and then what comes with it is added at the end; otherwise the automaton
stays as it was (`Addition.edit_cases`). So after all calls the automaton has the states and the
transitions of those that were granted, and nothing else (`Automaton.attempt_eq`).

The builder checks with each call what `Automaton.validate` checks at the end : its automata are
coherent after any calls (`Automaton.Coherent.attempt`), and all that can still be missing is the
initial state (`Automaton.Coherent.validate_eq_ok_iff`). `coherent_of_attempt` puts this together.
-/

namespace AutomatonLab

/-! ## One call -/

theorem Automaton.isSome_state?_iff {a : Automaton} {name : Text} :
    (a.state? name).isSome = true ↔ name ∈ a.states.map State.name := by
  simp [state?, List.find?_isSome]

theorem Automaton.isNone_state?_iff {a : Automaton} {name : Text} :
    (a.state? name).isNone = true ↔ name ∉ a.states.map State.name := by
  rw [← isSome_state?_iff, Option.isNone_iff_eq_none, Option.not_isSome_iff_eq_none]

namespace Addition

/-- The command for the call. -/
def edit : Addition → Edit
  | state s => .addState s
  | transition source target label => .addTransition source target label

/-- The state that comes with the call. -/
def state? : Addition → Option State
  | state s => some s
  | transition .. => none

/-- The transition that comes with the call, with the label that was given for it. -/
def transition? (f : Formalism) : Addition → Option Transition
  | state _ => none
  | transition source target label =>
    (label.resolve f).toOption.map fun l => ⟨source, target, l⟩

/-- The automaton has no state of the new name, or it has both ends of the new transition and the
label is one of its formalism. -/
def Allowed (a : Automaton) : Addition → Prop
  | state s => s.name ∉ a.states.map State.name
  | transition source target label =>
    (source ∈ a.states.map State.name ∧ target ∈ a.states.map State.name) ∧
      ∃ l, label.resolve a.formalism = .ok l

/-- The automaton with what comes with the call, at the end. -/
def added (a : Automaton) (x : Addition) : Automaton :=
  { a with
    states := a.states ++ x.state?.toList
    transitions := a.transitions ++ (x.transition? a.formalism).toList }

variable {a : Automaton}

/-- The label of a call is the one it resolves to. -/
theorem transition?_of_resolve {f : Formalism} {source target : Text} {label : LabelSource}
    {l : Label} (hl : label.resolve f = .ok l) :
    (transition source target label).transition? f = some ⟨source, target, l⟩ := by
  rw [transition?, hl]
  rfl

/-- A state is added exactly if no state of its name is there; otherwise there is a fault. -/
theorem addState_cases (a : Automaton) (s : State) :
    (state s).Allowed a ∧ a.addState s = .ok ((state s).added a) ∨
      ¬(state s).Allowed a ∧ ∃ fault, a.addState s = .error fault := by
  by_cases hname : s.name ∈ a.states.map State.name
  · refine .inr ⟨not_not.2 hname, .nameInUse s.name, ?_⟩
    rw [Automaton.addState, if_pos (Automaton.isSome_state?_iff.2 hname)]
  · refine .inl ⟨hname, ?_⟩
    rw [Automaton.addState, if_neg (mt Automaton.isSome_state?_iff.1 hname), added]
    simp [state?, transition?]

/-- Both ends are looked for before the label is read. -/
theorem addTransition_cases (a : Automaton) (source target : Text) (label : LabelSource) :
    (transition source target label).Allowed a ∧ (∃ t, a.addTransition source target label =
        .ok (t, (transition source target label).added a)) ∨
      ¬(transition source target label).Allowed a ∧
        ∃ fault, a.addTransition source target label = .error fault := by
  by_cases hends : source ∈ a.states.map State.name ∧ target ∈ a.states.map State.name
  · have hdeclared : ¬((a.state? source).isNone ∨ (a.state? target).isNone) := by
      simpa only [Automaton.isNone_state?_iff, not_or, not_not] using hends
    cases hl : label.resolve a.formalism with
    | error e =>
      refine .inr ⟨fun ⟨_, l, hl'⟩ => ?_, .badLabel e, ?_⟩
      · cases hl.symm.trans hl'
      · rw [Automaton.addTransition, if_neg hdeclared, hl]
    | ok l =>
      refine .inl ⟨⟨hends, l, hl⟩, ⟨source, target, l⟩, ?_⟩
      rw [Automaton.addTransition, if_neg hdeclared, hl, added, transition?_of_resolve hl]
      simp [state?]
  · have hmissing : (a.state? source).isNone ∨ (a.state? target).isNone := by
      simpa only [Automaton.isNone_state?_iff, ← not_and_or] using hends
    refine .inr ⟨fun h => hends h.1, .malformed .badEndpoint, ?_⟩
    rw [Automaton.addTransition, if_pos hmissing]

/-- A call that is allowed is granted, and any other one is refused and leaves the automaton as it
was. -/
theorem edit_cases (a : Automaton) (x : Addition) :
    x.Allowed a ∧ (∃ reply, x.edit.perform a = (pure reply, x.added a)) ∨
      ¬x.Allowed a ∧ ∃ fault, x.edit.perform a = (.fail fault, a) := by
  cases x with
  | state s =>
    refine (addState_cases a s).imp (And.imp_right fun h => ?_) (And.imp_right ?_)
    · exact ⟨.state s, by rw [edit, Edit.perform, h]; rfl⟩
    · rintro ⟨fault, h⟩
      exact ⟨fault, by rw [edit, Edit.perform, h]; rfl⟩
  | transition source target label =>
    refine (addTransition_cases a source target label).imp (And.imp_right ?_) (And.imp_right ?_)
    · rintro ⟨t, h⟩
      exact ⟨.added t, by rw [edit, Edit.perform, h]; rfl⟩
    · rintro ⟨fault, h⟩
      exact ⟨fault, by rw [edit, Edit.perform, h]; rfl⟩

end Addition

/-! ## Many calls -/

namespace Automaton

variable {a : Automaton} {x : Addition} {xs : List Addition}

/-- The automaton after the calls, the refused ones included. -/
def attempt (a : Automaton) (xs : List Addition) : Automaton :=
  xs.foldl (fun a x => (x.edit.perform a).2) a

/-- Those of the calls that are granted, when they are made one after the other. -/
def granted (a : Automaton) : List Addition → List Addition
  | [] => []
  | x :: xs =>
    let (outcome, b) := x.edit.perform a
    match outcome.result with
    | .ok _ => x :: b.granted xs
    | .error _ => b.granted xs

/-- The first call is granted, or it changes nothing. -/
theorem attempt_cons_cases (a : Automaton) (x : Addition) (xs : List Addition) :
    x.Allowed a ∧ a.attempt (x :: xs) = (x.added a).attempt xs ∧
        a.granted (x :: xs) = x :: (x.added a).granted xs ∨
      a.attempt (x :: xs) = a.attempt xs ∧ a.granted (x :: xs) = a.granted xs := by
  rcases x.edit_cases a with ⟨hx, reply, hedit⟩ | ⟨-, fault, hedit⟩
  · exact .inl ⟨hx, by simp only [attempt, List.foldl_cons, hedit],
      by simp only [granted, hedit]; rfl⟩
  · exact .inr ⟨by simp only [attempt, List.foldl_cons, hedit],
      by simp only [granted, hedit]; rfl⟩

/-- What has been added is what came with the granted calls, in their order. -/
theorem attempt_eq (a : Automaton) (xs : List Addition) :
    a.attempt xs = { a with
      states := a.states ++ (a.granted xs).filterMap Addition.state?
      transitions :=
        a.transitions ++ (a.granted xs).filterMap (Addition.transition? a.formalism) } := by
  induction xs generalizing a with
  | nil => simp [attempt, granted]
  | cons x xs ih =>
    rcases a.attempt_cons_cases x xs with ⟨-, hattempt, hgranted⟩ | ⟨hattempt, hgranted⟩
    · rw [hattempt, hgranted, ih, filterMap_cons_eq, filterMap_cons_eq]
      simp only [Addition.added, List.append_assoc]
    · rw [hattempt, hgranted, ih]

/-! ## Coherent automata -/

/-- The names of the states differ, the transitions join declared states, and the labels belong to
the formalism, which is one of the three. -/
structure Coherent (a : Automaton) : Prop extends a.Typed where
  names : (a.states.map State.name).Nodup
  endpoints : ∀ t ∈ a.transitions,
    t.source ∈ a.states.map State.name ∧ t.target ∈ a.states.map State.name

/-- An automaton without states and transitions is coherent. -/
theorem coherent_empty {f : Formalism} (hf : f ∈ Formalism.all) : (empty f).Coherent :=
  ⟨⟨hf, nofun⟩, List.nodup_nil, nofun⟩

namespace Coherent

/-- Of a coherent automaton, only the number of initial states is left to check. -/
theorem validate_eq_ok_iff (h : a.Coherent) :
    a.validate = .ok () ↔ a.states.countP State.initial = 1 :=
  Automaton.validate_eq_ok_iff.trans ⟨WellFormed.initial, fun hone => ⟨h.names, h.endpoints, hone⟩⟩

/-- One more state does no harm if its name is new. -/
theorem withState (h : a.Coherent) {s : State} (hs : s.name ∉ a.states.map State.name) :
    ({ a with states := a.states ++ [s] } : Automaton).Coherent := by
  refine ⟨⟨h.known, h.labels⟩, ?_, fun t ht => ?_⟩
  · rw [List.map_append, List.map_singleton, ← List.concat_eq_append]
    exact h.names.concat hs
  · rw [List.map_append]
    obtain ⟨hsource, htarget⟩ := h.endpoints t ht
    exact ⟨List.mem_append_left _ hsource, List.mem_append_left _ htarget⟩

/-- One more transition does no harm if its label is of the formalism and its ends are declared. -/
theorem withTransition (h : a.Coherent) {t : Transition} (ht : t.label.formalism = a.formalism)
    (hends : t.source ∈ a.states.map State.name ∧ t.target ∈ a.states.map State.name) :
    ({ a with transitions := a.transitions ++ [t] } : Automaton).Coherent := by
  refine ⟨⟨h.known, fun t' ht' => ?_⟩, h.names, fun t' ht' => ?_⟩ <;>
    rcases List.mem_append.1 ht' with ht' | ht'
  · exact h.labels t' ht'
  · rwa [List.mem_singleton.1 ht']
  · exact h.endpoints t' ht'
  · rwa [List.mem_singleton.1 ht']

/-- A call that is allowed keeps the automaton coherent. -/
theorem added (h : a.Coherent) (hx : x.Allowed a) : (x.added a).Coherent := by
  cases x with
  | state s => simpa [Addition.added, Addition.state?, Addition.transition?] using h.withState hx
  | transition source target label =>
    obtain ⟨hends, l, hl⟩ := hx
    rw [Addition.added, Addition.transition?_of_resolve hl]
    simpa [Addition.state?] using
      h.withTransition (t := ⟨source, target, l⟩) (resolve_eq_ok hl).1 hends

/-- After any calls the automaton is coherent. -/
theorem attempt (h : a.Coherent) (xs : List Addition) : (a.attempt xs).Coherent := by
  induction xs generalizing a with
  | nil => exact h
  | cons x xs ih =>
    rcases a.attempt_cons_cases x xs with ⟨hx, hattempt, -⟩ | ⟨hattempt, -⟩
    · rw [hattempt]
      exact ih (h.added hx)
    · rw [hattempt]
      exact ih h

end Coherent

/-- A new automaton is empty, and its formalism is one of the three. -/
theorem new_eq_ok_iff {code : Json} :
    new code = .ok a ↔ code = .str a.formalism.code ∧ a.formalism ∈ Formalism.all ∧
      a = empty a.formalism := by
  rw [new]
  cases hcode : code.str?.bind Formalism.ofCode? with
  | none =>
    refine ⟨nofun, fun ⟨hcode', hf, _⟩ => ?_⟩
    have hsome := ofCode?_of_json_eq_some_iff.2 ⟨hcode', hf⟩
    cases hcode.symm.trans hsome
  | some f =>
    obtain ⟨rfl, hf⟩ := ofCode?_of_json_eq_some_iff.1 hcode
    constructor
    · intro h
      obtain rfl := Except.ok.inj h
      exact ⟨rfl, hf, rfl⟩
    · rintro ⟨hcode', hf', ha⟩
      have hsame := ofCode?_of_json_eq_some_iff.2 ⟨hcode', hf'⟩
      rw [ha, Option.some.inj (hcode.symm.trans hsame)]

end Automaton

/-- Whatever calls are made on a new automaton, each one is granted if it is allowed, and otherwise
it is refused and leaves the automaton as it was. So the states and the transitions are those of the
granted calls. The names of the states differ, the transitions join declared states, and the labels
belong to the formalism. The automaton is well-formed exactly if one of the states that were granted
is initial. Then that one is its initial state, and its final states are those that were granted as
final. -/
theorem coherent_of_attempt {code : Json} {a₀ : Automaton} (hnew : Automaton.new code = .ok a₀)
    (calls : List Addition) :
    (∀ before call after, calls = before ++ call :: after →
      call.Allowed (a₀.attempt before) ∧ (∃ reply, call.edit.perform (a₀.attempt before) =
          (pure reply, call.added (a₀.attempt before))) ∨
        ¬call.Allowed (a₀.attempt before) ∧ ∃ fault, call.edit.perform (a₀.attempt before) =
          (.fail fault, a₀.attempt before)) ∧
    a₀.attempt calls = ⟨a₀.formalism, (a₀.granted calls).filterMap Addition.state?,
      (a₀.granted calls).filterMap (Addition.transition? a₀.formalism)⟩ ∧
    (a₀.attempt calls).Coherent ∧
    ((a₀.attempt calls).validate = .ok () ↔
      ((a₀.granted calls).filterMap Addition.state?).countP State.initial = 1) ∧
    ((a₀.attempt calls).validate = .ok () →
      (∀ name, (a₀.attempt calls).start? = some name ↔
        ∃ s ∈ (a₀.granted calls).filterMap Addition.state?, s.name = name ∧ s.initial = true) ∧
      ∀ name, (a₀.attempt calls).isFinal name = true ↔
        ∃ s ∈ (a₀.granted calls).filterMap Addition.state?, s.name = name ∧ s.final = true) := by
  obtain ⟨-, hf, hempty⟩ := Automaton.new_eq_ok_iff.1 hnew
  have hcoherent : (a₀.attempt calls).Coherent :=
    (hempty ▸ Automaton.coherent_empty hf : a₀.Coherent).attempt calls
  have hbuilt : a₀.attempt calls =
      ⟨a₀.formalism, (a₀.granted calls).filterMap Addition.state?,
        (a₀.granted calls).filterMap (Addition.transition? a₀.formalism)⟩ := by
    have hstates : a₀.states = [] := by rw [hempty]; rfl
    have htransitions : a₀.transitions = [] := by rw [hempty]; rfl
    rw [a₀.attempt_eq, hstates, htransitions, List.nil_append, List.nil_append]
  have hstates : (a₀.attempt calls).states = (a₀.granted calls).filterMap Addition.state? :=
    congrArg Automaton.states hbuilt
  refine ⟨fun before call after _ => call.edit_cases (a₀.attempt before), hbuilt, hcoherent, ?_,
    fun hvalid => ?_⟩
  · rw [hcoherent.validate_eq_ok_iff, hstates]
  · have hwell := Automaton.validate_eq_ok_iff.1 hvalid
    rw [← hstates]
    exact ⟨fun name => hwell.start?_eq_some_iff, fun name => hwell.isFinal_iff⟩

/-- A name that is in use, an undeclared target, a label of another formalism, and a text and a
value that are none, between the calls that are granted. -/
def hesitantCalls : List Addition :=
  [.state ⟨"p", true, false⟩, .state ⟨"p", false, true⟩,
    .transition "p" "q" (.value (.str "a,&->X")), .state ⟨"q", false, true⟩,
    .transition "p" "q" (.label (.fa "a")), .transition "p" "q" (.value (.str "a")),
    .transition "p" "q" (.value .null), .transition "p" "q" (.value (.str "a,&->X"))]

/-- Calls of which three are granted : a state twice, and a transition before its ends. -/
theorem coherent_of_attempt_hesitant : ∃ a₀, Automaton.new (.str "pda") = .ok a₀ ∧
    (a₀.granted hesitantCalls).length = 3 ∧
    a₀.attempt hesitantCalls = ⟨.pda, [⟨"p", true, false⟩, ⟨"q", false, true⟩],
      [⟨"p", "q", .pda "a" Label.epsilon "X"⟩]⟩ ∧
    (a₀.attempt hesitantCalls).Coherent ∧ (a₀.attempt hesitantCalls).validate = .ok () ∧
    (a₀.attempt hesitantCalls).start? = some ("p" : Text) ∧
    ∀ name : Text, (a₀.attempt hesitantCalls).isFinal name = true ↔ name = "q" := by
  have hnew : Automaton.new (.str "pda") = .ok (Automaton.empty .pda) := rfl
  obtain ⟨-, -, hcoherent, hvalid, hstates⟩ := coherent_of_attempt hnew hesitantCalls
  have hone : ((Automaton.empty .pda).granted hesitantCalls).filterMap Addition.state? =
      [⟨"p", true, false⟩, ⟨"q", false, true⟩] := rfl
  rw [hone] at hvalid hstates
  have hvalidated := hvalid.2 rfl
  obtain ⟨hstart, hfinal⟩ := hstates hvalidated
  refine ⟨_, hnew, rfl, rfl, hcoherent, hvalidated, (hstart "p").2 ?_, fun name => ?_⟩
  · exact ⟨⟨"p", true, false⟩, List.mem_cons_self, rfl, rfl⟩
  · rw [hfinal name]
    constructor
    · rintro ⟨s, hs, rfl, hlast⟩
      rcases List.mem_pair.1 hs with rfl | rfl
      · cases hlast
      · rfl
    · rintro rfl
      exact ⟨⟨"q", false, true⟩, List.mem_cons_of_mem _ List.mem_cons_self, rfl, rfl⟩

end AutomatonLab
