import AutomatonLab.Proofs.Definition

/-!
# How a definition is refused

A definition that yields no automaton has a defect, which the fault names, but for a few that go
astray (`Definition.Stray`) : where the items of a member should be there is a value that has none,
or an end of a transition is an array or an object, which nobody can look up among the names. Then
the fault is no defect, and says no more than that a value cannot be used
(`Automaton.ofJson_eq_unusable_iff_stray`).

The first phase that fails decides (`Automaton.ofJson_eq_unusable_iff`), and in the phase that looks
up the ends the first item that fails (`BreaksOff`, `mapM_eq_error_iff`).
-/

namespace AutomatonLab

/-! ## The first failure -/

/-- Going through the items, all pass up to one that fails. -/
inductive BreaksOff {α : Type} (passes fails : α → Prop) : List α → Prop
  | here {x : α} {rest : List α} (h : fails x) : BreaksOff passes fails (x :: rest)
  | later {x : α} {rest : List α} (hx : passes x) (h : BreaksOff passes fails rest) :
      BreaksOff passes fails (x :: rest)

/-- A list breaks off at its head, or passes it and breaks off later. -/
theorem breaksOff_cons_iff {α : Type} {passes fails : α → Prop} {x : α} {rest : List α} :
    BreaksOff passes fails (x :: rest) ↔ fails x ∨ passes x ∧ BreaksOff passes fails rest := by
  constructor
  · rintro (h | ⟨hx, h⟩)
    · exact .inl h
    · exact .inr ⟨hx, h⟩
  · rintro (h | ⟨hx, h⟩)
    · exact .here h
    · exact .later hx h

/-- Where a list breaks off, there is an item that fails. -/
theorem exists_of_breaksOff {α : Type} {passes fails : α → Prop} {xs : List α}
    (h : BreaksOff passes fails xs) : ∃ x ∈ xs, fails x := by
  induction h with
  | here h => exact ⟨_, List.mem_cons_self, h⟩
  | later _ _ ih =>
    obtain ⟨x, hx, h⟩ := ih
    exact ⟨x, List.mem_cons_of_mem _ hx, h⟩

/-- Where the items of one list pass and fail with those of another, the two break off together. -/
theorem breaksOff_iff_of_forall₂ {α β : Type} {R : α → β → Prop} {passes fails : α → Prop}
    {passes' fails' : β → Prop} (hpasses : ∀ x y, R x y → (passes x ↔ passes' y))
    (hfails : ∀ x y, R x y → (fails x ↔ fails' y)) {xs : List α} {ys : List β}
    (h : List.Forall₂ R xs ys) : BreaksOff passes fails xs ↔ BreaksOff passes' fails' ys := by
  induction h with
  | nil => exact ⟨nofun, nofun⟩
  | cons hxy _ ih =>
    rw [breaksOff_cons_iff, breaksOff_cons_iff, hpasses _ _ hxy, hfails _ _ hxy, ih]

/-- A traversal gives a fault exactly if it breaks off at an item with that fault. -/
theorem mapM_eq_error_iff {ε α β : Type} {f : α → Except ε β} {xs : List α} {e : ε} :
    xs.mapM f = .error e ↔ BreaksOff (fun x => ∃ y, f x = .ok y) (fun x => f x = .error e) xs := by
  induction xs with
  | nil => exact ⟨nofun, nofun⟩
  | cons x xs ih =>
    rw [List.mapM_cons, bind_eq_error_iff, breaksOff_cons_iff, ← ih, ← exists_and_right]
    refine or_congr_right (exists_congr fun y => and_congr_right fun _ => ?_)
    rw [bind_eq_error_iff]
    exact ⟨fun h => h.resolve_right nofun, .inl⟩

namespace Definition

/-- The member is there, but there are no items to meet in it. -/
def Unlisted (data : Json) (name : Text) : Prop :=
  ∃ v, data.member? name = some v ∧ v.elements? = none

/-- An end of the item is an array or an object. The target counts only if the source is one of the
names. -/
def Baffling (names : List Text) (item : Json) : Prop :=
  (∃ v, item.member? "from" = some v ∧ v.isContainer = true) ∨
    ∃ source ∈ names, item.member? "from" = some (.str source) ∧
      ∃ v, item.member? "to" = some v ∧ v.isContainer = true

/-- Before any defect is found, the definition comes to a value that cannot be used. -/
inductive Stray (data : Json) (f : Formalism) : Prop
  | states (h : Unlisted data "states")
  | transitions {stateItems : List Json} {states : List State}
      (listed : Lists data "states" stateItems) (declared : List.Forall₂ Declares stateItems states)
      (h : Unlisted data "transitions")
  | ends {stateItems items : List Json} {states : List State}
      (listed : Lists data "states" stateItems) (declared : List.Forall₂ Declares stateItems states)
      (listed' : Lists data "transitions" items) (ends : ∀ item ∈ items, HasEnds item)
      (names : (states.map State.name).Nodup)
      (h : BreaksOff (Joined (states.map State.name)) (Baffling (states.map State.name))
        (items.filter fun item => (label? f item).isSome))

variable {f : Formalism} {names : List Text} {item data : Json}

/-- Only a container cannot be looked up among the names. -/
theorem lookUp_eq_unusable_iff {missing : Text → Defect} {v : Json} :
    lookUp names missing v = .error .unusableValue ↔ v.isContainer = true := by
  cases v with
  | str s => by_cases hs : s ∈ names <;> simp [lookUp, Json.isContainer, hs]
  | _ => simp [lookUp, Json.isContainer]

/-- The ends of a transition are looked up in order, the source first. -/
theorem resolve_eq_unusable_iff {d : Draft} : d.resolve names = .error .unusableValue ↔
    d.source.isContainer = true ∨
      ∃ source, (d.source = .str source ∧ source ∈ names) ∧ d.target.isContainer = true := by
  have hpure (source target : Text) :
      (pure ⟨source, target, d.label⟩ : Except Fault Transition) ≠ .error .unusableValue := nofun
  simp only [Draft.resolve, bind_eq_error_iff, lookUp_eq_unusable_iff, lookUp_eq_ok_iff, hpure,
    and_false, exists_false, or_false]

/-- An item joins two states exactly if its draft can be resolved. -/
theorem Drafts.joined_iff {d : Draft} (h : Drafts f item d) :
    Joined names item ↔ ∃ t, d.resolve names = .ok t := by
  simp only [Joined, h.source, h.target, Option.some.injEq, Draft.resolve_eq_ok_iff]
  constructor
  · rintro ⟨source, hsource, target, htarget, hs, ht⟩
    exact ⟨⟨source, target, d.label⟩, ⟨hs, hsource⟩, ⟨ht, htarget⟩, rfl⟩
  · rintro ⟨t, ⟨hs, hsource⟩, ⟨ht, htarget⟩, -⟩
    exact ⟨t.source, hsource, t.target, htarget, hs, ht⟩

/-- An item has an unusable end exactly if its draft does. -/
theorem Drafts.baffling_iff {d : Draft} (h : Drafts f item d) :
    Baffling names item ↔ d.resolve names = .error .unusableValue := by
  simp only [Baffling, h.source, h.target, Option.some.injEq, resolve_eq_unusable_iff,
    exists_eq_left', and_assoc, and_left_comm]

/-- The items break off where their drafts do. -/
theorem Drafts.breaksOff_iff {items : List Json} {drafts : List Draft}
    (h : List.Forall₂ (Drafts f) items drafts) :
    BreaksOff (Joined names) (Baffling names) items ↔
      drafts.mapM (Draft.resolve names) = .error .unusableValue := by
  rw [mapM_eq_error_iff]
  exact breaksOff_iff_of_forall₂ (fun _ _ hd => hd.joined_iff) (fun _ _ hd => hd.baffling_iff) h

/-- Items with both ends give drafts, those without a label left out. -/
theorem exists_drafts (f : Formalism) {items : List Json} (h : ∀ item ∈ items, HasEnds item) :
    ∃ drafts, List.Forall₂ (Drafts f)
      (items.filter fun item => (label? f item).isSome) drafts := by
  refine exists_forall₂ fun item hitem => ?_
  obtain ⟨hmem, hlabel⟩ := List.mem_filter.1 hitem
  obtain ⟨source, hsource⟩ := Option.isSome_iff_exists.1 (h item hmem).source
  obtain ⟨target, htarget⟩ := Option.isSome_iff_exists.1 (h item hmem).target
  obtain ⟨l, hl⟩ := Option.isSome_iff_exists.1 hlabel
  exact ⟨⟨source, target, l⟩, hsource, htarget, hl⟩

end Definition

/-! ## The phase that fails -/

/-- A fault of the checks is never the one for unusable values. -/
theorem mapError_malformed_ne_unusable {α : Type} (x : Except Defect α) :
    x.mapError Fault.malformed ≠ .error .unusableValue := by
  cases x <;> exact nofun

namespace Outcome

variable {α β : Type} {e : Fault}

theorem result_ofExcept {result : Except Fault α} : (ofExcept result).result = result := rfl

theorem result_ofExcept_bind {result : Except Fault α} {f : α → Outcome β} :
    (ofExcept result >>= f).result = result >>= fun a => (f a).result := by
  cases result <;> rfl

theorem result_note_bind {entries : List LogEntry} {f : Unit → Outcome β} :
    (note entries >>= f).result = (f ()).result := rfl

end Outcome

namespace Automaton

variable {data : Json} {f : Formalism}

/-- The items of a member cannot be gone through exactly if it is neither a list nor missing. -/
theorem itemsOf_eq_unusable_iff {name : Text} :
    itemsOf data name = .error .unusableValue ↔ Definition.Unlisted data name := by
  rw [itemsOf, Definition.Unlisted]
  cases data.member? name with
  | none => simp [Json.elements?]
  | some v => cases helements : v.elements? <;> simp [helements]

/-- The automaton is put together up to the first transition with an unusable end. -/
theorem ofDrafts_eq_unusable_iff {states : List State} {drafts : List Draft} :
    ofDrafts f states drafts = .error .unusableValue ↔ (states.map State.name).Nodup ∧
      drafts.mapM (Draft.resolve (states.map State.name)) = .error .unusableValue := by
  have hpure (transitions : List Transition) :
      (pure ⟨f, states, transitions⟩ : Except Fault Automaton) ≠ .error .unusableValue := nofun
  simp only [ofDrafts, bind_eq_error_iff, mapError_malformed_ne_unusable, mapError_eq_ok_iff, hpure,
    and_false, exists_false, or_false, false_or]
  rw [← checkNames_eq_ok_iff]
  constructor
  · rintro ⟨_, hnames, h⟩
    exact ⟨hnames, h⟩
  · rintro ⟨hnames, h⟩
    exact ⟨(), hnames, h⟩

/-- The first phase that fails comes to a value that cannot be used. -/
theorem ofJson_eq_unusable_iff : (ofJson data).result = .error .unusableValue ↔
    (∃ members, data = .obj members) ∧ ∃ f, formalismOf data = .ok f ∧
      (itemsOf data "states" = .error .unusableValue ∨
      ∃ stateItems, itemsOf data "states" = .ok stateItems ∧
      ∃ states, stateItems.mapM Definition.readState = .ok states ∧
      (itemsOf data "transitions" = .error .unusableValue ∨
      ∃ items, itemsOf data "transitions" = .ok items ∧
      ∃ drafts, (Definition.readTransitions f items).1 = .ok drafts ∧
        ofDrafts f states drafts = .error .unusableValue)) := by
  cases data with
  | obj members =>
    simp only [ofJson, Outcome.result_ofExcept_bind, Outcome.result_note_bind, bind_eq_error_iff,
      Outcome.result_ofExcept, mapError_malformed_ne_unusable, mapError_eq_ok_iff, false_or]
    exact (and_iff_right ⟨members, rfl⟩).symm
  | _ =>
    constructor
    · intro h
      cases h
    · rintro ⟨⟨_, h⟩, -⟩
      cases h

/-- The loader gives the foreign fault exactly for a stray definition. -/
theorem ofJson_eq_unusable_iff_stray : (ofJson data).result = .error .unusableValue ↔
    (∃ members, data = .obj members) ∧
      ∃ f, Definition.Names data f ∧ Definition.Stray data f := by
  rw [ofJson_eq_unusable_iff]
  simp only [formalismOf_eq_ok_iff, itemsOf_eq_ok_iff, itemsOf_eq_unusable_iff, mapM_eq_ok_iff,
    Definition.readState_eq_ok_iff, Definition.readTransitions_eq_ok_iff, ofDrafts_eq_unusable_iff]
  refine and_congr_right fun _ => exists_congr fun f => and_congr_right fun _ => ?_
  constructor
  · rintro (h | ⟨stateItems, hlisted, states, hdeclared, h | ⟨items, hlisted', drafts,
      ⟨hends, hdrafts⟩, hnames, h⟩⟩)
    · exact .states h
    · exact .transitions hlisted hdeclared h
    · exact .ends hlisted hdeclared hlisted' hends hnames
        ((Definition.Drafts.breaksOff_iff hdrafts).2 h)
  · rintro (h | ⟨hlisted, hdeclared, h⟩ | ⟨hlisted, hdeclared, hlisted', hends, hnames, h⟩)
    · exact .inl h
    · exact .inr ⟨_, hlisted, _, hdeclared, .inl h⟩
    · obtain ⟨drafts, hdrafts⟩ := Definition.exists_drafts f hends
      exact .inr ⟨_, hlisted, _, hdeclared, .inr ⟨_, hlisted', drafts, ⟨hends, hdrafts⟩, hnames,
        (Definition.Drafts.breaksOff_iff hdrafts).1 h⟩⟩

end Automaton

/-! ## The faults there are -/

/-- A fault of the loader : a defect, or a value that cannot be used. -/
inductive Fault.OfLoader : Fault → Prop
  | malformed (defect : Defect) : OfLoader (.malformed defect)
  | unusableValue : OfLoader .unusableValue

open Fault (OfLoader)

variable {e : Fault} {f : Formalism} {names : List Text}

theorem ofLoader_of_mapError {α : Type} {x : Except Defect α}
    (h : x.mapError Fault.malformed = .error e) : OfLoader e := by
  cases x with
  | error defect => exact Except.error.inj h ▸ .malformed defect
  | ok a => cases h

theorem ofLoader_of_lookUp {missing : Text → Defect} {v : Json}
    (h : Definition.lookUp names missing v = .error e) : OfLoader e := by
  unfold Definition.lookUp at h
  split at h
  · exact Except.error.inj h ▸ .unusableValue
  · split at h
    · split at h
      · cases h
      · exact Except.error.inj h ▸ .malformed _
    · exact Except.error.inj h ▸ .malformed _

theorem ofLoader_of_resolve {d : Draft} (h : d.resolve names = .error e) : OfLoader e := by
  simp only [Draft.resolve, bind_eq_error_iff] at h
  rcases h with h | ⟨source, -, h | ⟨target, -, h⟩⟩
  · exact ofLoader_of_lookUp h
  · exact ofLoader_of_lookUp h
  · cases h

theorem ofLoader_of_itemsOf {data : Json} {name : Text}
    (h : Automaton.itemsOf data name = .error e) : OfLoader e := by
  rw [Automaton.itemsOf] at h
  split at h
  · cases h
  · exact Except.error.inj h ▸ .unusableValue

theorem ofLoader_of_ofDrafts {states : List State} {drafts : List Draft}
    (h : Automaton.ofDrafts f states drafts = .error e) : OfLoader e := by
  simp only [Automaton.ofDrafts, bind_eq_error_iff] at h
  rcases h with h | ⟨-, -, h | ⟨transitions, -, h | ⟨-, -, h⟩⟩⟩
  · exact ofLoader_of_mapError h
  · obtain ⟨d, -, hd⟩ := exists_of_breaksOff (mapM_eq_error_iff.1 h)
    exact ofLoader_of_resolve hd
  · exact ofLoader_of_mapError h
  · cases h

/-- Whatever the loader refuses, it refuses with a fault of its own. -/
theorem ofLoader_of_ofJson {data : Json} (h : (Automaton.ofJson data).result = .error e) :
    OfLoader e := by
  cases data with
  | obj members =>
    simp only [Automaton.ofJson, Outcome.result_ofExcept_bind, Outcome.result_note_bind,
      bind_eq_error_iff, Outcome.result_ofExcept] at h
    rcases h with h | ⟨f, -, h | ⟨stateItems, -, h | ⟨states, -, h | ⟨items, -,
      h | ⟨drafts, -, h⟩⟩⟩⟩⟩
    · exact ofLoader_of_mapError h
    · exact ofLoader_of_itemsOf h
    · exact ofLoader_of_mapError h
    · exact ofLoader_of_itemsOf h
    · exact ofLoader_of_mapError h
    · exact ofLoader_of_ofDrafts h
  | _ => exact Except.error.inj h ▸ .malformed _

/-- A definition yields an automaton or has a defect, unless it goes astray. -/
theorem ofJson_refusal (data : Json) :
    ((∃ a, (Automaton.ofJson data).result = .ok a) ∨
      (∃ defect, (Automaton.ofJson data).result = .error (.malformed defect)) ∨
        (Automaton.ofJson data).result = .error .unusableValue) ∧
    ((Automaton.ofJson data).result = .error .unusableValue ↔
      (∃ members, data = .obj members) ∧
        ∃ f, Definition.Names data f ∧ Definition.Stray data f) := by
  refine ⟨?_, Automaton.ofJson_eq_unusable_iff_stray⟩
  cases hresult : (Automaton.ofJson data).result with
  | ok a => exact .inl ⟨a, rfl⟩
  | error e =>
    cases ofLoader_of_ofJson hresult with
    | malformed defect => exact .inr (.inl ⟨defect, rfl⟩)
    | unusableValue => exact .inr (.inr rfl)

/-- The states of a definition may be left out, but they may not be `null`. -/
theorem ofJson_refusal_null_states :
    let data : Json := .obj [("states", .null)]
    ¬((∃ a, (Automaton.ofJson data).result = .ok a) ∨
      ∃ defect, (Automaton.ofJson data).result = .error (.malformed defect)) := by
  intro data
  have hresult : (Automaton.ofJson data).result = .error .unusableValue := rfl
  rw [hresult]
  rintro (⟨a, h⟩ | ⟨defect, h⟩) <;> cases h

end AutomatonLab
