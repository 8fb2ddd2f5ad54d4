import AutomatonLab.Automaton.Builder
import AutomatonLab.Proofs.Reloading

/-!
# Saving what was built

The builder takes a label as a text, which is read, or as a label of the formalism, which is kept as
it is. What is saved of either is its written form. So an automaton that is well-formed is loaded
again with the transitions whose labels can be read from there, as they are read
(`Transition.reread`), and with a warning for each other one (`Automaton.read_write_of_wellFormed`).

The builder keeps account of the labels that it was given (`Automaton.Accounts`) : the other ones
have been read, and are legible. So nothing is lost or altered exactly if every label that was given
as a label is legible (`read_write_of_built`).
-/

namespace AutomatonLab

/-- A call of the builder. -/
inductive Addition where
  | state (s : State)
  | transition (source target : Text) (label : LabelSource)

namespace Addition

/-- Carries out an addition. -/
def perform (a : Automaton) : Addition → Except Fault Automaton
  | state s => a.addState s
  | transition source target label => (a.addTransition source target label).map Prod.snd

/-- The label that comes with the call, unless it comes as a text. -/
def given? : Addition → Option Label
  | transition _ _ (.label l) => some l
  | _ => none

@[simp] theorem given?_state (s : State) : (state s).given? = none := rfl

@[simp] theorem given?_value (source target : Text) (v : Json) :
    (transition source target (.value v)).given? = none := rfl

end Addition

/-- The automaton that the calls of the builder make, beginning with an empty one. -/
def Automaton.build (f : Formalism) (additions : List Addition) : Except Fault Automaton :=
  additions.foldlM Addition.perform (empty f)

/-- The transition with the label that is read from the written form of its own. -/
def Transition.reread (f : Formalism) (t : Transition) : Option Transition :=
  (Label.parse f t.label.text).toOption.map fun l => { t with label := l }

/-! ## What is loaded of a well-formed automaton -/

theorem filterMap_cons_eq {α β : Type} (f : α → Option β) (x : α) (xs : List α) :
    (x :: xs).filterMap f = (f x).toList ++ xs.filterMap f := by
  simp only [List.filterMap_eq_flatMap_toList, List.flatMap_cons]

/-- A list is left as it is exactly if each of its members is. -/
theorem filterMap_eq_self_iff {α : Type} {f : α → Option α} {xs : List α} :
    xs.filterMap f = xs ↔ ∀ x ∈ xs, f x = some x := by
  induction xs with
  | nil => exact ⟨fun _ => nofun, fun _ => rfl⟩
  | cons x xs ih =>
    rw [List.forall_mem_cons, ← ih]
    cases hx : f x with
    | none =>
      rw [List.filterMap_cons_none hx]
      refine ⟨fun h => ?_, nofun⟩
      have hlength := List.length_filterMap_le f xs
      rw [h, List.length_cons] at hlength
      omega
    | some y => rw [List.filterMap_cons_some hx, List.cons.injEq, Option.some_inj]

namespace Transition

open Definition Automaton

variable {f : Formalism} {t : Transition}

theorem label?_transitionJson_eq (f : Formalism) (t : Transition) :
    label? f (transitionJson t) = (t.reread f).map Transition.label := by
  show (Label.parse f t.label.text).toOption = _
  rw [reread, Option.map_map]
  exact Option.map_id'.symm

/-- A transition comes back from its written form exactly if its label can be read there. -/
theorem reread_eq_self_iff (h : t.label.formalism = f) :
    t.reread f = some t ↔ t.label.Legible := by
  subst h
  constructor
  · intro hreread
    have hlabel := label?_transitionJson_eq t.label.formalism t
    rw [hreread] at hlabel
    obtain ⟨text, hparse⟩ := parse_of_label? hlabel
    exact Label.legible_of_parse hparse
  · intro hlegible
    rw [reread, Label.parse_text_of_legible hlegible]
    rfl

/-- What comes back is described by the item that was written. -/
theorem describes_of_reread {t' : Transition} (h : t.reread f = some t') :
    Describes f (transitionJson t) t' := by
  have hlabel := label?_transitionJson_eq f t
  rw [h] at hlabel
  obtain ⟨l, -, rfl⟩ := Option.map_eq_some_iff.1 h
  exact ⟨rfl, rfl, hlabel⟩

/-- The items that are saved for transitions describe those that can be read again. -/
theorem describes_filterMap_reread (ts : List Transition) : List.Forall₂ (Describes f)
    ((ts.map transitionJson).filter fun item => (label? f item).isSome)
    (ts.filterMap (reread f)) := by
  induction ts with
  | nil => exact .nil
  | cons t ts ih =>
    have hlabel := label?_transitionJson_eq f t
    rw [List.map_cons]
    cases ht : t.reread f with
    | none =>
      rw [ht] at hlabel
      rwa [List.filterMap_cons_none ht, List.filter_cons_of_neg (by rw [hlabel]; nofun)]
    | some t' =>
      rw [ht] at hlabel
      rw [List.filterMap_cons_some ht, List.filter_cons_of_pos (by rw [hlabel]; rfl)]
      exact .cons (describes_of_reread ht) ih

end Transition

namespace Automaton

variable {a b : Automaton} {f : Formalism} {given : List Label}

/-- The items that are saved for the transitions that cannot be read again. -/
def lostItems (a : Automaton) : List Json :=
  (a.transitions.filter fun t => (t.reread a.formalism).isNone).map transitionJson

/-- What is lost are the items without a readable label. -/
theorem lostItems_eq (a : Automaton) : a.lostItems =
    (a.transitions.map transitionJson).filter
      fun item => (Definition.label? a.formalism item).isNone := by
  rw [lostItems, List.filter_map]
  congr 2
  funext t
  rw [Function.comp_apply, Transition.label?_transitionJson_eq, Option.isNone_map]

/-- A saved automaton is loaded without the transitions that do not come back. -/
theorem WellFormed.yields (h : a.WellFormed) (hf : a.formalism ∈ Formalism.all) :
    ∃ log, Definition.Yields a.toJson (a.transitions.map transitionJson)
      { a with transitions := a.transitions.filterMap (Transition.reread a.formalism) } log := by
  have hends : ∀ item ∈ a.transitions.map transitionJson, Definition.HasEnds item := by
    intro item hitem
    obtain ⟨t, -, rfl⟩ := List.mem_map.1 hitem
    exact ⟨rfl, rfl⟩
  refine ⟨_, ⟨⟨_, rfl⟩, .inr ⟨rfl, hf⟩, ⟨a.states.map stateJson, .inr ⟨_, rfl, rfl⟩, ?_⟩,
    .inr ⟨_, rfl, rfl⟩, hends, h.names, ?_, h.initial⟩, Transition.describes_filterMap_reread _,
    Definition.reports_readTransitions hends⟩
  · rw [List.forall₂_map_left_iff, List.forall₂_same]
    exact fun s _ => declares_stateJson s
  · intro item hitem _
    obtain ⟨t, ht, rfl⟩ := List.mem_map.1 hitem
    obtain ⟨hsource, htarget⟩ := h.endpoints t ht
    exact ⟨t.source, hsource, t.target, htarget, rfl, rfl⟩

/-- A well-formed automaton is loaded again with the transitions that can be read, and each other
one is reported. -/
theorem read_write_of_wellFormed (h : a.WellFormed) (hf : a.formalism ∈ Formalism.all) :
    ∃ log, read a.write = ⟨.ok { a with
        transitions := a.transitions.filterMap (Transition.reread a.formalism) }, log⟩ ∧
      List.Forall₂ (Definition.Reports a.formalism) a.lostItems log := by
  obtain ⟨log, hyields⟩ := h.yields hf
  have hwordy : Json.Wordy Json.maxDepth a.toJson := wordy_toJson a (Json.maxDepth - 3)
  refine ⟨log, ?_, a.lostItems_eq ▸ hyields.reported⟩
  rw [read, write, hwordy.read_write]
  exact ofJson_eq_ok_iff_yields.2 ⟨_, hyields⟩

/-! ## What the builder makes -/

/-- The labels of the automaton belong to its formalism. Those that were given are among them, and
the others are legible. -/
structure Accounts (f : Formalism) (given : List Label) (a : Automaton) : Prop where
  formalism : a.formalism = f
  labels : ∀ t ∈ a.transitions, t.label.formalism = f ∧ (t.label ∈ given ∨ t.label.Legible)
  kept : ∀ l ∈ given, ∃ t ∈ a.transitions, t.label = l

/-- Nothing has been added yet, and no label has been given. -/
theorem accounts_empty (f : Formalism) : Accounts f [] (empty f) :=
  ⟨rfl, nofun, nofun⟩

/-- A state that is added comes last. -/
theorem addState_eq_ok {s : State} (h : a.addState s = .ok b) :
    b = { a with states := a.states ++ [s] } := by
  rw [addState] at h
  split at h
  · cases h
  · exact (Except.ok.inj h).symm

/-- A transition that is added comes last, with the label that was resolved. -/
theorem addTransition_eq_ok {source target : Text} {label : LabelSource}
    (h : (a.addTransition source target label).map Prod.snd = .ok b) :
    ∃ l, label.resolve a.formalism = .ok l ∧
      b = { a with transitions := a.transitions ++ [⟨source, target, l⟩] } := by
  obtain ⟨⟨t, b'⟩, hadd, rfl⟩ := map_eq_ok_iff.1 h
  rw [addTransition] at hadd
  split at hadd
  · cases hadd
  · split at hadd
    case h_1 => cases hadd
    case h_2 l hl =>
      obtain ⟨rfl, rfl⟩ := Prod.mk.inj (Except.ok.inj hadd)
      exact ⟨l, hl, rfl⟩

/-- What comes as a label stays as it is, and what comes as a text is read. -/
theorem resolve_eq_ok {label : LabelSource} {l : Label} (h : label.resolve f = .ok l) :
    l.formalism = f ∧ (label = .label l ∨ ∃ text, label = .value (.str text) ∧ l.Legible) := by
  cases label with
  | label l' =>
    cases f with
    | other code => cases h
    | _ =>
      simp only [LabelSource.resolve] at h
      split at h
      case isTrue hl' =>
        obtain rfl := Except.ok.inj h
        exact ⟨hl', .inl rfl⟩
      case isFalse => cases h
  | value v =>
    cases v with
    | str text =>
      exact ⟨Label.formalism_of_parse h, .inr ⟨text, rfl, Label.legible_of_parse h⟩⟩
    | _ => cases f <;> cases h

/-- A label that was given as one is kept on account. -/
theorem Accounts.keep (h : Accounts f given a) {t : Transition} (ht : t.label.formalism = f) :
    Accounts f (given ++ [t.label]) { a with transitions := a.transitions ++ [t] } where
  formalism := h.formalism
  labels t' ht' := by
    rcases List.mem_append.1 ht' with ht' | ht'
    · obtain ⟨hformalism, hlabel⟩ := h.labels t' ht'
      exact ⟨hformalism, hlabel.imp_left fun hmem => List.mem_append_left _ hmem⟩
    · obtain rfl := List.mem_singleton.1 ht'
      exact ⟨ht, .inl (List.mem_append_right _ List.mem_cons_self)⟩
  kept l hl := by
    rcases List.mem_append.1 hl with hl | hl
    · obtain ⟨t', ht', rfl⟩ := h.kept l hl
      exact ⟨t', List.mem_append_left _ ht', rfl⟩
    · exact ⟨t, List.mem_append_right _ List.mem_cons_self, (List.mem_singleton.1 hl).symm⟩

/-- A label that was read needs no account, since it can be read again. -/
theorem Accounts.read (h : Accounts f given a) {t : Transition} (ht : t.label.formalism = f)
    (hlegible : t.label.Legible) :
    Accounts f given { a with transitions := a.transitions ++ [t] } where
  formalism := h.formalism
  labels t' ht' := by
    rcases List.mem_append.1 ht' with ht' | ht'
    · exact h.labels t' ht'
    · obtain rfl := List.mem_singleton.1 ht'
      exact ⟨ht, .inr hlegible⟩
  kept l hl := by
    obtain ⟨t', ht', rfl⟩ := h.kept l hl
    exact ⟨t', List.mem_append_left _ ht', rfl⟩

/-- One more addition, and at most one more label on account. -/
theorem Accounts.perform {x : Addition} (h : Accounts f given a) (hx : x.perform a = .ok b) :
    Accounts f (given ++ x.given?.toList) b := by
  cases x with
  | state s =>
    obtain rfl := addState_eq_ok hx
    rw [Addition.given?_state, Option.toList_none, List.append_nil]
    exact ⟨h.formalism, h.labels, h.kept⟩
  | transition source target label =>
    obtain ⟨l, hl, rfl⟩ := addTransition_eq_ok hx
    rw [h.formalism] at hl
    obtain ⟨hformalism, rfl | ⟨text, rfl, hlegible⟩⟩ := resolve_eq_ok hl
    · exact h.keep (t := ⟨source, target, l⟩) hformalism
    · rw [Addition.given?_value, Option.toList_none, List.append_nil]
      exact h.read (t := ⟨source, target, l⟩) hformalism hlegible

/-- The account is kept over any number of calls. -/
theorem Accounts.build {additions : List Addition} (h : Accounts f given a)
    (hb : additions.foldlM Addition.perform a = .ok b) :
    Accounts f (given ++ additions.filterMap Addition.given?) b := by
  induction additions generalizing a given with
  | nil =>
    obtain rfl := Except.ok.inj hb
    rwa [List.filterMap_nil, List.append_nil]
  | cons x additions ih =>
    obtain ⟨a', hx, hrest⟩ := bind_eq_ok_iff.1 ((List.foldlM_cons ..).symm.trans hb)
    have haccounts := ih (h.perform hx) hrest
    rwa [List.append_assoc, ← filterMap_cons_eq] at haccounts

/-- All labels that may not come back were given as such. -/
theorem accounts_of_build {additions : List Addition} (h : build f additions = .ok a) :
    Accounts f (additions.filterMap Addition.given?) a :=
  (accounts_empty f).build h

/-- All labels are legible if those that were given as labels are. -/
theorem Accounts.filterMap_reread_eq_iff (h : Accounts f given a) :
    a.transitions.filterMap (Transition.reread f) = a.transitions ↔ ∀ l ∈ given, l.Legible := by
  rw [filterMap_eq_self_iff]
  constructor
  · intro hself l hl
    obtain ⟨t, ht, rfl⟩ := h.kept l hl
    exact (Transition.reread_eq_self_iff (h.labels t ht).1).1 (hself t ht)
  · intro hlegible t ht
    obtain ⟨hformalism, hlabel⟩ := h.labels t ht
    exact (Transition.reread_eq_self_iff hformalism).2 (hlabel.elim (hlegible _) id)

end Automaton

/-- A well-formed automaton from the builder is loaded again with its states and with those of its
transitions that can be read from what is saved of them. Each other one is reported. All of them come
back as they were exactly if each label that was given as a label is legible. -/
theorem read_write_of_built {f : Formalism} {additions : List Addition} {a : Automaton}
    (hf : f ∈ Formalism.all) (hbuild : Automaton.build f additions = .ok a)
    (hvalid : a.validate = .ok ()) :
    ∃ b log, Automaton.read a.write = ⟨.ok b, log⟩ ∧ b.formalism = f ∧ b.states = a.states ∧
      b.transitions = a.transitions.filterMap (Transition.reread f) ∧
      List.Forall₂ (Definition.Reports f) a.lostItems log ∧
      (b.transitions = a.transitions ↔
        ∀ l ∈ additions.filterMap Addition.given?, l.Legible) ∧
      (b.transitions = a.transitions → log = []) := by
  have haccounts := Automaton.accounts_of_build hbuild
  obtain rfl := haccounts.formalism
  obtain ⟨log, hread, hlog⟩ :=
    Automaton.read_write_of_wellFormed (Automaton.validate_eq_ok_iff.1 hvalid) hf
  refine ⟨_, log, hread, rfl, rfl, rfl, hlog, haccounts.filterMap_reread_eq_iff, fun hself => ?_⟩
  have hnone : a.lostItems = [] := by
    rw [Automaton.lostItems, List.map_eq_nil_iff, List.filter_eq_nil_iff]
    intro t ht
    rw [filterMap_eq_self_iff.1 hself t ht]
    nofun
  rwa [hnone, List.forall₂_nil_left_iff] at hlog

/-- The comma of a pushdown automaton is a symbol like any other for the builder. -/
def commaLoop : List Addition :=
  [.state ⟨"q", true, false⟩, .transition "q" "q" (.value (.str "a,&->X")),
    .transition "q" "q" (.label (.pda "," Label.epsilon "X"))]

/-- What is saved of the second transition cannot be read, and the first one stays alone. -/
theorem read_write_of_built_comma : ∃ a b log, Automaton.build .pda commaLoop = .ok a ∧
    Automaton.read a.write = ⟨.ok b, log⟩ ∧
    b.transitions = [⟨"q", "q", .pda "a" Label.epsilon "X"⟩] ∧ log.length = 1 := by
  let a : Automaton := ⟨.pda, [⟨"q", true, false⟩],
    [⟨"q", "q", .pda "a" Label.epsilon "X"⟩, ⟨"q", "q", .pda "," Label.epsilon "X"⟩]⟩
  have hbuild : Automaton.build .pda commaLoop = .ok a := rfl
  obtain ⟨b, log, hread, -, -, htransitions, hlog, -⟩ :=
    read_write_of_built (by decide) hbuild (by decide)
  exact ⟨a, b, log, hbuild, hread, htransitions, hlog.length_eq.symm⟩

/-- Not every automaton that the builder makes comes back with its transitions. -/
theorem not_read_write_of_built : ¬∀ (f : Formalism) (additions : List Addition) (a : Automaton),
    f ∈ Formalism.all → Automaton.build f additions = .ok a → a.validate = .ok () →
    ∃ b, Automaton.read a.write = ⟨.ok b, []⟩ ∧ b.states = a.states ∧
      b.transitions = a.transitions := by
  intro h
  let a : Automaton := ⟨.pda, [⟨"q", true, false⟩],
    [⟨"q", "q", .pda "a" Label.epsilon "X"⟩, ⟨"q", "q", .pda "," Label.epsilon "X"⟩]⟩
  have hvalid : a.validate = .ok () := by decide
  obtain ⟨b, hread, -, htransitions⟩ := h .pda commaLoop a (by decide) rfl hvalid
  obtain ⟨log, hloaded, -⟩ :=
    Automaton.read_write_of_wellFormed (Automaton.validate_eq_ok_iff.1 hvalid) (by decide)
  obtain rfl := Except.ok.inj (Outcome.mk.inj (hread.symm.trans hloaded)).1
  have hlength : ([⟨"q", "q", .pda "a" Label.epsilon "X"⟩] : List Transition).length = 2 :=
    congrArg List.length htransitions
  cases hlength

end AutomatonLab
