import AutomatonLab.Automaton.Definition
import AutomatonLab.Proofs.WellFormed

/-!
# What a definition must be

`Definition.Admissible` says of a JSON value what makes it the definition of an automaton, one
demand for each of its parts : an object that names a known formalism, items that declare states of
different names, one of them initial, and items that have two ends. Only an item whose label can be
read (`Definition.label?`) has to join declared states (`Definition.Joined`) and describes a
transition (`Definition.Describes`); each other one is reported (`Definition.Reports`), and nobody
looks up its ends.

The phases of `Automaton.ofJson` are described one by one, each by a condition on what it reads.
Together they say that the automaton has the states and the transitions of the items
(`Automaton.ofJson_eq_ok_iff_yields`), and that there is one exactly if the definition is admissible
(`ofJson_iff_admissible`).
-/

namespace AutomatonLab

namespace Definition

/-- The definition names the formalism, one of the three. One that names none is about finite
automata. -/
def Names (data : Json) (f : Formalism) : Prop :=
  data.member? "formalism" = none ∧ f = .fa ∨
    data.member? "formalism" = some (.str f.code) ∧ f ∈ Formalism.all

/-- The items of a member of the definition. A member that is left out has none. -/
def Lists (data : Json) (name : Text) (items : List Json) : Prop :=
  data.member? name = none ∧ items = [] ∨
    ∃ v, data.member? name = some v ∧ v.elements? = some items

/-- The item declares the state, which is initial or final if a member that says so counts as
true. -/
structure Declares (item : Json) (s : State) : Prop where
  name : item.member? "name" = some (.str s.name)
  initial : s.initial = (item.member? "initial").any Json.truthy
  final : s.final = (item.member? "final").any Json.truthy

/-- The label that can be read from an item : a text that is the written form of a label. -/
def label? (f : Formalism) (item : Json) : Option Label :=
  ((item.member? "label").bind Json.str?).bind fun text => (Label.parse f text).toOption

/-- The item has two ends, whatever they are. -/
structure HasEnds (item : Json) : Prop where
  source : (item.member? "from").isSome = true
  target : (item.member? "to").isSome = true

/-- The item describes the transition. -/
structure Describes (f : Formalism) (item : Json) (t : Transition) : Prop where
  source : item.member? "from" = some (.str t.source)
  target : item.member? "to" = some (.str t.target)
  label : label? f item = some t.label

/-- The ends of the item are two of the names. -/
def Joined (names : List Text) (item : Json) : Prop :=
  ∃ source ∈ names, ∃ target ∈ names,
    item.member? "from" = some (.str source) ∧ item.member? "to" = some (.str target)

/-- The entry of the log warns that the item has been left out, and says why. -/
structure Reports (f : Formalism) (item : Json) (entry : LogEntry) : Prop where
  level : entry.level = .warning
  text : ∃ cause, readLabel f item = .error cause ∧
    entry.text = "Ignorando transição malformada " ++ item.text ++ ": " ++ cause

/-- The value is a definition, with these states and these items for transitions. -/
structure Admissible (data : Json) (f : Formalism) (states : List State) (items : List Json) :
    Prop where
  object : ∃ members, data = .obj members
  formalism : Names data f
  declared : ∃ stateItems, Lists data "states" stateItems ∧
    List.Forall₂ Declares stateItems states
  listed : Lists data "transitions" items
  ends : ∀ item ∈ items, HasEnds item
  names : (states.map State.name).Nodup
  joins : ∀ item ∈ items, (label? f item).isSome = true → Joined (states.map State.name) item
  initial : states.countP State.initial = 1

/-- The automaton has the states and the transitions that the definition says, and the log one entry
for each item that describes no transition. -/
structure Yields (data : Json) (items : List Json) (a : Automaton) (log : List LogEntry) :
    Prop where
  admissible : Admissible data a.formalism a.states items
  described : List.Forall₂ (Describes a.formalism)
    (items.filter fun item => (label? a.formalism item).isSome) a.transitions
  reported : List.Forall₂ (Reports a.formalism)
    (items.filter fun item => (label? a.formalism item).isNone) log

end Definition

/-! ## Results and logs of phases -/

theorem mapError_eq_ok_iff {ε ε' α : Type} {x : Except ε α} {f : ε → ε'} {a : α} :
    x.mapError f = .ok a ↔ x = .ok a := by
  cases x with
  | error e => exact ⟨nofun, nofun⟩
  | ok a' => exact ⟨fun h => congrArg _ (Except.ok.inj h), fun h => congrArg _ (Except.ok.inj h)⟩

theorem map_eq_ok_iff {ε α β : Type} {x : Except ε α} {f : α → β} {b : β} :
    x.map f = .ok b ↔ ∃ a, x = .ok a ∧ f a = b := by
  cases x with
  | error e => exact ⟨nofun, nofun⟩
  | ok a =>
    exact ⟨fun h => ⟨a, rfl, Except.ok.inj h⟩, fun ⟨_, ha, h⟩ => congrArg _ (Except.ok.inj ha ▸ h)⟩

/-- Going through a list succeeds if each item gives its result. -/
theorem mapM_eq_ok_iff {ε α β : Type} {f : α → Except ε β} {xs : List α} {ys : List β} :
    xs.mapM f = .ok ys ↔ List.Forall₂ (fun x y => f x = .ok y) xs ys := by
  induction xs generalizing ys with
  | nil =>
    rw [List.mapM_nil, List.forall₂_nil_left_iff]
    exact ⟨fun h => (Except.ok.inj h).symm, fun h => h ▸ rfl⟩
  | cons x xs ih =>
    rw [List.mapM_cons, List.forall₂_cons_left_iff, bind_eq_ok_iff]
    constructor
    · rintro ⟨y, hy, hrest⟩
      obtain ⟨ys', hys', hcons⟩ := bind_eq_ok_iff.1 hrest
      exact ⟨y, ys', hy, ih.1 hys', (Except.ok.inj hcons).symm⟩
    · rintro ⟨y, ys', hy, hys', rfl⟩
      exact ⟨y, hy, bind_eq_ok_iff.2 ⟨ys', ih.2 hys', rfl⟩⟩

/-- Two lists that are related through a third one are related item by item. -/
theorem forall₂_comp_iff {α β γ : Type} {R : α → β → Prop} {S : β → γ → Prop} {xs : List α}
    {zs : List γ} : (∃ ys, List.Forall₂ R xs ys ∧ List.Forall₂ S ys zs) ↔
      List.Forall₂ (fun x z => ∃ y, R x y ∧ S y z) xs zs := by
  constructor
  · rintro ⟨ys, hxs, hzs⟩
    induction hxs generalizing zs with
    | nil => rwa [List.forall₂_nil_left_iff] at hzs ⊢
    | cons hxy _ ih =>
      obtain ⟨z, rest, hyz, hrest, rfl⟩ := List.forall₂_cons_left_iff.1 hzs
      exact .cons ⟨_, hxy, hyz⟩ (ih hrest)
  · intro h
    induction h with
    | nil => exact ⟨[], .nil, .nil⟩
    | cons hxz _ ih =>
      obtain ⟨y, hxy, hyz⟩ := hxz
      obtain ⟨ys, hxs, hzs⟩ := ih
      exact ⟨y :: ys, .cons hxy hxs, .cons hyz hzs⟩

/-- If each item has its like, there is a list of them. -/
theorem exists_forall₂ {α β : Type} {R : α → β → Prop} {xs : List α} (h : ∀ x ∈ xs, ∃ y, R x y) :
    ∃ ys, List.Forall₂ R xs ys := by
  induction xs with
  | nil => exact ⟨[], .nil⟩
  | cons x xs ih =>
    obtain ⟨⟨y, hy⟩, hrest⟩ := List.forall_mem_cons.1 h
    obtain ⟨ys, hys⟩ := ih hrest
    exact ⟨y :: ys, .cons hy hys⟩

namespace Outcome

variable {α β : Type} {result : Except Fault α} {a : α} {b : β} {entries log : List LogEntry}

theorem ofExcept_eq_ok_iff : ofExcept result = ⟨.ok a, log⟩ ↔ result = .ok a ∧ log = [] := by
  rw [ofExcept, Outcome.mk.injEq, eq_comm (a := [])]

/-- A phase without entries leaves the log to those after it. -/
theorem ofExcept_bind_eq_ok_iff {f : α → Outcome β} :
    ofExcept result >>= f = ⟨.ok b, log⟩ ↔ ∃ a, result = .ok a ∧ f a = ⟨.ok b, log⟩ := by
  cases result with
  | error fault => exact ⟨nofun, nofun⟩
  | ok a =>
    have hbind : ofExcept (.ok a) >>= f = f a := rfl
    rw [hbind]
    exact ⟨fun h => ⟨a, rfl, h⟩, fun ⟨_, ha, h⟩ => Except.ok.inj ha ▸ h⟩

theorem note_bind_eq_ok_iff {f : Unit → Outcome β} : note entries >>= f = ⟨.ok b, log⟩ ↔
    ∃ rest, f () = ⟨.ok b, rest⟩ ∧ log = entries ++ rest := by
  have hbind : note entries >>= f = ⟨(f ()).result, entries ++ (f ()).log⟩ := rfl
  rw [hbind, Outcome.mk.injEq]
  constructor
  · rintro ⟨hresult, hlog⟩
    exact ⟨(f ()).log, by rw [← hresult], hlog.symm⟩
  · rintro ⟨rest, hf, rfl⟩
    rw [hf]
    exact ⟨rfl, rfl⟩

end Outcome

/-! ## The phases -/

namespace Definition

variable {f : Formalism} {data item : Json} {items : List Json}

/-- A state is read exactly from an item that declares it. -/
theorem readState_eq_ok_iff {s : State} : readState item = .ok s ↔ Declares item s := by
  have hdefault : ∀ v : Option Json, (v.map Json.truthy).getD false = v.any Json.truthy := by
    rintro (_ | v) <;> rfl
  rw [readState]
  constructor
  · intro h
    split at h
    · cases h
    case h_2 name hname =>
      obtain rfl := Except.ok.inj h
      exact ⟨hname, hdefault _, hdefault _⟩
    · cases h
  · rintro ⟨hname, hinitial, hfinal⟩
    rw [hname]
    simp only [hdefault, ← hinitial, ← hfinal]

/-- A label is read exactly from an item that has it. -/
theorem readLabel_eq_ok_iff {l : Label} : readLabel f item = .ok l ↔ label? f item = some l := by
  rw [readLabel, label?]
  cases item.member? "label" with
  | none => simp
  | some v =>
    cases v with
    | str text =>
      simp only [LabelSource.resolve, Option.bind_some, Json.str?]
      cases Label.parse f text <;> simp [Except.toOption]
    | _ =>
      cases f <;> simp [LabelSource.resolve, Json.str?]

/-- The item gives the draft of a transition. -/
structure Drafts (f : Formalism) (item : Json) (d : Draft) : Prop where
  source : item.member? "from" = some d.source
  target : item.member? "to" = some d.target
  label : label? f item = some d.label

/-- The warning about an item tells of the item and of the cause. -/
theorem reports_skipped {cause : Text} (h : readLabel f item = .error cause) :
    Reports f item (skipped item cause) :=
  ⟨rfl, cause, h, rfl⟩

/-- There is one way to report an item. -/
theorem rightUnique_reports : Relator.RightUnique (Reports f) := by
  rintro item ⟨level, text⟩ ⟨level', text'⟩ ⟨rfl, cause, hcause, htext⟩
    ⟨rfl, cause', hcause', htext'⟩
  obtain rfl := Except.error.inj (hcause.symm.trans hcause')
  rw [show text = _ from htext, show text' = _ from htext']

/-- An item with a label adds a transition. -/
theorem readTransitions_of_read {source target : Json} {l : Label}
    (hsource : item.member? "from" = some source) (htarget : item.member? "to" = some target)
    (hl : readLabel f item = .ok l) :
    readTransitions f (item :: items) =
      ((readTransitions f items).1.map (⟨source, target, l⟩ :: ·),
        (readTransitions f items).2) := by
  rw [readTransitions, hsource, htarget]
  simp only [hl]

/-- An item without a readable label adds a warning. -/
theorem readTransitions_of_skipped {cause : Text} (hends : HasEnds item)
    (hcause : readLabel f item = .error cause) :
    readTransitions f (item :: items) =
      ((readTransitions f items).1, skipped item cause :: (readTransitions f items).2) := by
  obtain ⟨source, hsource⟩ := Option.isSome_iff_exists.1 hends.source
  obtain ⟨target, htarget⟩ := Option.isSome_iff_exists.1 hends.target
  rw [readTransitions, hsource, htarget]
  simp only [hcause]

/-- An item without both ends is a defect of the whole. -/
theorem readTransitions_of_loose (hends : ¬HasEnds item) :
    readTransitions f (item :: items) = (.error (.looseTransition item.display), []) := by
  rw [readTransitions]
  split
  case h_1 source target hsource htarget =>
    exact absurd ⟨by rw [hsource]; rfl, by rw [htarget]; rfl⟩ hends
  case h_2 => rfl

/-- An item has no label exactly if there is a cause to report. -/
theorem label?_eq_none_iff : label? f item = none ↔ ∃ cause, readLabel f item = .error cause := by
  cases hread : readLabel f item with
  | ok l => simp [readLabel_eq_ok_iff.1 hread]
  | error cause =>
    rw [← Option.not_isSome_iff_eq_none, Option.isSome_iff_exists]
    simp only [← readLabel_eq_ok_iff, hread]
    exact ⟨fun _ => ⟨cause, rfl⟩, fun _ => nofun⟩

/-- Every item must have two ends, and those with a readable label are drafted, in their order. -/
theorem readTransitions_eq_ok_iff {drafts : List Draft} :
    (readTransitions f items).1 = .ok drafts ↔ (∀ item ∈ items, HasEnds item) ∧
      List.Forall₂ (Drafts f) (items.filter fun item => (label? f item).isSome) drafts := by
  induction items generalizing drafts with
  | nil =>
    rw [List.filter_nil, List.forall₂_nil_left_iff]
    exact ⟨fun h => ⟨nofun, (Except.ok.inj h).symm⟩, fun ⟨_, h⟩ => h ▸ rfl⟩
  | cons item items ih =>
    rw [List.forall_mem_cons]
    by_cases hends : HasEnds item
    · cases hread : readLabel f item with
      | ok l =>
        obtain ⟨source, hsource⟩ := Option.isSome_iff_exists.1 hends.source
        obtain ⟨target, htarget⟩ := Option.isSome_iff_exists.1 hends.target
        have hl := readLabel_eq_ok_iff.1 hread
        rw [readTransitions_of_read hsource htarget hread,
          List.filter_cons_of_pos (by simp [hl]), List.forall₂_cons_left_iff]
        constructor
        · intro h
          obtain ⟨rest, hrest, rfl⟩ := map_eq_ok_iff.1 h
          obtain ⟨hall, hdrafts⟩ := ih.1 hrest
          exact ⟨⟨hends, hall⟩, _, rest, ⟨hsource, htarget, hl⟩, hdrafts, rfl⟩
        · rintro ⟨⟨-, hall⟩, ⟨source', target', l'⟩, rest, hdraft, hdrafts, rfl⟩
          obtain rfl := Option.some.inj (hsource.symm.trans hdraft.source)
          obtain rfl := Option.some.inj (htarget.symm.trans hdraft.target)
          obtain rfl := Option.some.inj (hl.symm.trans hdraft.label)
          exact map_eq_ok_iff.2 ⟨rest, ih.2 ⟨hall, hdrafts⟩, rfl⟩
      | error cause =>
        have hnone := label?_eq_none_iff.2 ⟨cause, hread⟩
        rw [readTransitions_of_skipped hends hread, List.filter_cons_of_neg (by simp [hnone]), ih]
        exact ⟨fun ⟨hall, h⟩ => ⟨⟨hends, hall⟩, h⟩, fun ⟨⟨_, hall⟩, h⟩ => ⟨hall, h⟩⟩
    · rw [readTransitions_of_loose hends]
      exact ⟨nofun, fun h => absurd h.1.1 hends⟩

/-- Each item without a readable label is reported once, in their order. -/
theorem reports_readTransitions (h : ∀ item ∈ items, HasEnds item) :
    List.Forall₂ (Reports f) (items.filter fun item => (label? f item).isNone)
      (readTransitions f items).2 := by
  induction items with
  | nil => exact .nil
  | cons item items ih =>
    obtain ⟨hends, hall⟩ := List.forall_mem_cons.1 h
    cases hread : readLabel f item with
    | ok l =>
      obtain ⟨source, hsource⟩ := Option.isSome_iff_exists.1 hends.source
      obtain ⟨target, htarget⟩ := Option.isSome_iff_exists.1 hends.target
      rw [readTransitions_of_read hsource htarget hread,
        List.filter_cons_of_neg (by simp [readLabel_eq_ok_iff.1 hread])]
      exact ih hall
    | error cause =>
      rw [readTransitions_of_skipped hends hread,
        List.filter_cons_of_pos (by simp [label?_eq_none_iff.2 ⟨cause, hread⟩])]
      exact .cons (reports_skipped hread) (ih hall)

/-- An end is found exactly if it is a text among the names. -/
theorem lookUp_eq_ok_iff {names : List Text} {missing : Text → Defect} {v : Json} {name : Text} :
    lookUp names missing v = .ok name ↔ v = .str name ∧ name ∈ names := by
  cases v with
  | str s =>
    by_cases hs : s ∈ names
    · simp only [lookUp, Json.isContainer, hs]
      grind
    · simp only [lookUp, Json.isContainer, hs]
      grind
  | _ => simp [lookUp, Json.isContainer]

end Definition

/-- A formalism is known by its code. -/
theorem Formalism.ofCode?_eq_some_iff {code : Text} {f : Formalism} :
    ofCode? code = some f ↔ f ∈ all ∧ f.code = code := by
  constructor
  · intro h
    exact ⟨List.mem_of_find?_eq_some h, by simpa using List.find?_some h⟩
  · rintro ⟨hf, rfl⟩
    have hcases : f = .fa ∨ f = .pda ∨ f = .tm := by simpa [all] using hf
    rcases hcases with rfl | rfl | rfl <;> rfl

/-- A draft becomes a transition exactly if both its ends are declared. -/
theorem Draft.resolve_eq_ok_iff {names : List Text} {d : Draft} {t : Transition} :
    d.resolve names = .ok t ↔ (d.source = .str t.source ∧ t.source ∈ names) ∧
      (d.target = .str t.target ∧ t.target ∈ names) ∧ d.label = t.label := by
  simp only [resolve, bind_eq_ok_iff, Definition.lookUp_eq_ok_iff]
  constructor
  · rintro ⟨source, hsource, target, htarget, ht⟩
    obtain rfl := Except.ok.inj ht
    exact ⟨hsource, htarget, rfl⟩
  · rintro ⟨hsource, htarget, hlabel⟩
    exact ⟨_, hsource, _, htarget, by rw [hlabel]; rfl⟩

namespace Automaton

variable {data : Json} {f : Formalism} {a : Automaton}

theorem ofCode?_of_json_eq_some_iff {code : Json} :
    code.str?.bind Formalism.ofCode? = some f ↔ code = .str f.code ∧ f ∈ Formalism.all := by
  cases code with
  | str s =>
    simp only [Json.str?, Option.bind_some, Formalism.ofCode?_eq_some_iff, Json.str.injEq]
    exact ⟨fun h => ⟨h.2.symm, h.1⟩, fun h => ⟨h.2, h.1.symm⟩⟩
  | _ => simp [Json.str?]

/-- A definition names its formalism by a code, or names none and means the finite automata. -/
theorem formalismOf_eq_ok_iff : formalismOf data = .ok f ↔ Definition.Names data f := by
  have hfound : formalismOf data = .ok f ↔ ((data.member? "formalism").getD
      (.str Formalism.fa.code)).str?.bind Formalism.ofCode? = some f := by
    simp only [formalismOf]
    cases ((data.member? "formalism").getD (.str Formalism.fa.code)).str?.bind
      Formalism.ofCode? <;> simp
  rw [hfound, Definition.Names]
  cases data.member? "formalism" with
  | none =>
    show some Formalism.fa = some f ↔ _
    simp [eq_comm]
  | some code => simp [ofCode?_of_json_eq_some_iff]

/-- The items of a member are the values met when going through it. -/
theorem itemsOf_eq_ok_iff {name : Text} {items : List Json} :
    itemsOf data name = .ok items ↔ Definition.Lists data name items := by
  rw [itemsOf, Definition.Lists]
  cases data.member? name with
  | none => simp [Json.elements?, eq_comm]
  | some v =>
    cases helements : v.elements? <;> simp [helements]

/-- The last checks : different names, one initial state, and declared ends. -/
theorem ofDrafts_eq_ok_iff {states : List State} {drafts : List Draft} :
    ofDrafts f states drafts = .ok a ↔ (a.formalism = f ∧ a.states = states) ∧
      (states.map State.name).Nodup ∧ states.countP State.initial = 1 ∧
      List.Forall₂ (fun d t => d.resolve (states.map State.name) = .ok t) drafts a.transitions := by
  simp only [ofDrafts, bind_eq_ok_iff, mapError_eq_ok_iff, mapM_eq_ok_iff]
  constructor
  · rintro ⟨⟨⟩, hnames, transitions, htransitions, ⟨⟩, hinitial, ha⟩
    obtain rfl := Except.ok.inj ha
    exact ⟨⟨rfl, rfl⟩, checkNames_eq_ok_iff.1 hnames, checkInitial_eq_ok_iff.1 hinitial,
      htransitions⟩
  · rintro ⟨⟨rfl, rfl⟩, hnames, hinitial, htransitions⟩
    exact ⟨(), checkNames_eq_ok_iff.2 hnames, _, htransitions, (),
      checkInitial_eq_ok_iff.2 hinitial, rfl⟩

/-- An automaton comes out if every phase succeeds, and the log is that of its transitions. -/
theorem ofJson_eq_ok_iff {log : List LogEntry} : ofJson data = ⟨.ok a, log⟩ ↔
    (∃ members, data = .obj members) ∧ ∃ f, formalismOf data = .ok f ∧
      ∃ stateItems, itemsOf data "states" = .ok stateItems ∧
      ∃ states, stateItems.mapM Definition.readState = .ok states ∧
      ∃ items, itemsOf data "transitions" = .ok items ∧
      ∃ drafts, (Definition.readTransitions f items).1 = .ok drafts ∧
        ofDrafts f states drafts = .ok a ∧ log = (Definition.readTransitions f items).2 := by
  cases data with
  | obj members =>
    simp only [ofJson, Outcome.ofExcept_bind_eq_ok_iff, Outcome.note_bind_eq_ok_iff,
      Outcome.ofExcept_eq_ok_iff, mapError_eq_ok_iff]
    constructor
    · rintro ⟨f, hf, stateItems, hstateItems, states, hstates, items, hitems, -,
        ⟨drafts, hdrafts, ha, rfl⟩, rfl⟩
      exact ⟨⟨members, rfl⟩, f, hf, stateItems, hstateItems, states, hstates, items, hitems, drafts,
        hdrafts, ha, List.append_nil _⟩
    · rintro ⟨-, f, hf, stateItems, hstateItems, states, hstates, items, hitems, drafts, hdrafts,
        ha, rfl⟩
      exact ⟨f, hf, stateItems, hstateItems, states, hstates, items, hitems, [],
        ⟨drafts, hdrafts, ha, rfl⟩, (List.append_nil _).symm⟩
  | _ => exact ⟨nofun, nofun⟩

end Automaton

/-! ## The automaton of a definition -/

namespace Definition

variable {f : Formalism} {names : List Text} {item : Json} {items : List Json}

/-- An item whose ends are names describes the transition that its draft is resolved to. -/
theorem resolve_draft_iff {t : Transition} :
    (∃ d, Drafts f item d ∧ d.resolve names = .ok t) ↔ Joined names item ∧ Describes f item t := by
  simp only [Draft.resolve_eq_ok_iff]
  constructor
  · rintro ⟨d, ⟨hsource, htarget, hlabel⟩, ⟨hs, hsname⟩, ⟨ht, htname⟩, hl⟩
    rw [hs] at hsource
    rw [ht] at htarget
    rw [hl] at hlabel
    exact ⟨⟨_, hsname, _, htname, hsource, htarget⟩, hsource, htarget, hlabel⟩
  · rintro ⟨⟨source, hsname, target, htname, hs, ht⟩, hsource, htarget, hlabel⟩
    obtain rfl := Json.str.inj (Option.some.inj (hs.symm.trans hsource))
    obtain rfl := Json.str.inj (Option.some.inj (ht.symm.trans htarget))
    exact ⟨⟨.str t.source, .str t.target, t.label⟩, ⟨hsource, htarget, hlabel⟩, ⟨rfl, hsname⟩,
      ⟨rfl, htname⟩, rfl⟩

/-- The transitions are those of the items with a label, and the ends of all of them are
declared. -/
theorem resolve_drafts_iff {transitions : List Transition} :
    (∃ drafts, (readTransitions f items).1 = .ok drafts ∧
        List.Forall₂ (fun d t => d.resolve names = .ok t) drafts transitions) ↔
      (∀ item ∈ items, HasEnds item) ∧
        (∀ item ∈ items, (label? f item).isSome = true → Joined names item) ∧
        List.Forall₂ (Describes f) (items.filter fun item => (label? f item).isSome)
          transitions := by
  simp only [readTransitions_eq_ok_iff, and_assoc, exists_and_left, forall₂_comp_iff,
    resolve_draft_iff, List.forall₂_and_left, List.mem_filter, and_imp]

/-- There is one warning for each item without a label, in order. -/
theorem reports_iff {log : List LogEntry} (hends : ∀ item ∈ items, HasEnds item) :
    List.Forall₂ (Reports f) (items.filter fun item => (label? f item).isNone) log ↔
      log = (readTransitions f items).2 := by
  have hreports := reports_readTransitions (f := f) hends
  exact ⟨fun h => rightUnique_reports.forall₂ h hreports, fun h => h ▸ hreports⟩

/-- The items with a readable label can be described one by one. -/
theorem Admissible.exists_transitions {data : Json} {states : List State}
    (h : Admissible data f states items) : ∃ transitions : List Transition,
      List.Forall₂ (Describes f) (items.filter fun item => (label? f item).isSome) transitions := by
  refine exists_forall₂ fun item hitem => ?_
  obtain ⟨hmem, hlabel⟩ := List.mem_filter.1 hitem
  obtain ⟨source, -, target, -, hsource, htarget⟩ := h.joins item hmem hlabel
  obtain ⟨l, hl⟩ := Option.isSome_iff_exists.1 hlabel
  exact ⟨⟨source, target, l⟩, hsource, htarget, hl⟩

end Definition

/-- A definition is loaded exactly as `Definition.Yields` says. -/
theorem Automaton.ofJson_eq_ok_iff_yields {data : Json} {a : Automaton} {log : List LogEntry} :
    ofJson data = ⟨.ok a, log⟩ ↔ ∃ items, Definition.Yields data items a log := by
  rw [ofJson_eq_ok_iff]
  constructor
  · rintro ⟨hobject, f, hf, stateItems, hstateItems, states, hstates, items, hitems, drafts,
      hdrafts, ha, hlog⟩
    obtain ⟨⟨rfl, rfl⟩, hnames, hinitial, hresolve⟩ := ofDrafts_eq_ok_iff.1 ha
    obtain ⟨hends, hjoins, htransitions⟩ :=
      Definition.resolve_drafts_iff.1 ⟨drafts, hdrafts, hresolve⟩
    have hdeclares : List.Forall₂ Definition.Declares stateItems a.states := by
      simpa only [Definition.readState_eq_ok_iff] using mapM_eq_ok_iff.1 hstates
    exact ⟨items, ⟨hobject, formalismOf_eq_ok_iff.1 hf,
      ⟨stateItems, itemsOf_eq_ok_iff.1 hstateItems, hdeclares⟩, itemsOf_eq_ok_iff.1 hitems, hends,
      hnames, hjoins, hinitial⟩, htransitions, (Definition.reports_iff hends).2 hlog⟩
  · rintro ⟨items, h, htransitions, hlog⟩
    obtain ⟨stateItems, hstateItems, hdeclares⟩ := h.declared
    obtain ⟨drafts, hdrafts, hresolve⟩ :=
      Definition.resolve_drafts_iff.2 ⟨h.ends, h.joins, htransitions⟩
    have hstates : stateItems.mapM Definition.readState = .ok a.states := by
      simpa only [mapM_eq_ok_iff, Definition.readState_eq_ok_iff] using hdeclares
    exact ⟨h.object, a.formalism, formalismOf_eq_ok_iff.2 h.formalism, stateItems,
      itemsOf_eq_ok_iff.2 hstateItems, a.states, hstates, items, itemsOf_eq_ok_iff.2 h.listed,
      drafts, hdrafts, ofDrafts_eq_ok_iff.2 ⟨⟨rfl, rfl⟩, h.names, h.initial, hresolve⟩,
      (Definition.reports_iff h.ends).1 hlog⟩

/-- There is an automaton exactly if the definition is admissible, and it is the one that the
definition yields, with a warning for each item that is left out. -/
theorem ofJson_iff_admissible (data : Json) :
    ((∃ a, (Automaton.ofJson data).result = .ok a) ↔
      ∃ f states items, Definition.Admissible data f states items) ∧
    ∀ a log, Automaton.ofJson data = ⟨.ok a, log⟩ ↔
      ∃ items, Definition.Yields data items a log := by
  refine ⟨⟨?_, ?_⟩, fun a log => Automaton.ofJson_eq_ok_iff_yields⟩
  · rintro ⟨a, ha⟩
    have hresult : Automaton.ofJson data = ⟨.ok a, (Automaton.ofJson data).log⟩ := by rw [← ha]
    obtain ⟨items, h⟩ := Automaton.ofJson_eq_ok_iff_yields.1 hresult
    exact ⟨_, _, items, h.admissible⟩
  · rintro ⟨f, states, items, h⟩
    obtain ⟨transitions, htransitions⟩ := h.exists_transitions
    have hresult : Automaton.ofJson data = ⟨.ok ⟨f, states, transitions⟩, _⟩ :=
      Automaton.ofJson_eq_ok_iff_yields.2
        ⟨items, h, htransitions, Definition.reports_readTransitions h.ends⟩
    exact ⟨_, congrArg Outcome.result hresult⟩

/-- The second item has no label that can be read, so nobody looks for its ends among the states. -/
theorem ofJson_iff_admissible_skipped :
    let data : Json := .obj
      [("states", .arr [.obj [("name", .str "q"), ("initial", .int 1)]]),
        ("transitions", .arr
          [.obj [("from", .str "q"), ("to", .str "q"), ("label", .str "a")],
            .obj [("from", .null), ("to", .str "p"), ("label", .int 5)]])]
    ∃ log items, Definition.Yields data items
        ⟨.fa, [⟨"q", true, false⟩], [⟨"q", "q", .fa "a"⟩]⟩ log ∧ log.length = 1 := by
  intro data
  obtain ⟨-, hyields⟩ := ofJson_iff_admissible data
  obtain ⟨items, h⟩ := (hyields ⟨.fa, [⟨"q", true, false⟩], [⟨"q", "q", .fa "a"⟩]⟩ _).1 rfl
  exact ⟨_, items, h, rfl⟩

end AutomatonLab
