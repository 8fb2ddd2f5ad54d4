import AutomatonLab.Engine.Run
import AutomatonLab.Proofs.Definition
import AutomatonLab.Proofs.JsonText
import AutomatonLab.Proofs.WrittenLabel

/-!
# Saving and loading again

An automaton that was loaded is well-formed, belongs to one of the three formalisms and has only
labels that can be read back from their written forms (`Automaton.Restorable`,
`Automaton.restorable_of_ofJson`). Such an automaton is what its own definition yields, with nothing
to report (`Automaton.ofJson_toJson`), and the text of the definition is read as the definition
(`Automaton.read_write`). So saving and loading change nothing more once an automaton has been
loaded, whatever it was loaded from (`read_write_of_loaded`).
-/

namespace AutomatonLab

namespace Automaton

/-- What is demanded of an automaton for its definition to yield it. -/
structure Restorable (a : Automaton) : Prop where
  formalism : a.formalism ∈ Formalism.all
  wellFormed : a.WellFormed
  labels : ∀ t ∈ a.transitions, t.label.formalism = a.formalism ∧ t.label.Legible

variable {a : Automaton} {data : Json} {items : List Json} {log : List LogEntry}

/-! ## What was loaded -/

/-- Of two lists that are related item by item, each item of the second one has its like. -/
theorem exists_of_mem_forall₂ {α β : Type} {R : α → β → Prop} {xs : List α} {ys : List β}
    (h : List.Forall₂ R xs ys) {y : β} (hy : y ∈ ys) : ∃ x ∈ xs, R x y := by
  induction h with
  | nil => cases hy
  | cons hxy _ ih =>
    rcases List.mem_cons.1 hy with rfl | hy
    · exact ⟨_, List.mem_cons_self, hxy⟩
    · obtain ⟨x, hx, hxy⟩ := ih hy
      exact ⟨x, List.mem_cons_of_mem _ hx, hxy⟩

theorem formalism_mem_all_of_names {f : Formalism} (h : Definition.Names data f) :
    f ∈ Formalism.all := by
  rcases h with ⟨-, rfl⟩ | ⟨-, h⟩
  · exact List.mem_cons_self
  · exact h

/-- The label of an item is the parse of some text. -/
theorem parse_of_label? {f : Formalism} {item : Json} {l : Label}
    (h : Definition.label? f item = some l) : ∃ text, Label.parse f text = .ok l := by
  rw [Definition.label?, Option.bind_eq_some_iff] at h
  obtain ⟨text, -, hparse⟩ := h
  refine ⟨text, ?_⟩
  cases hp : Label.parse f text with
  | ok l' => rw [hp] at hparse; exact congrArg _ (Option.some.inj hparse)
  | error e => rw [hp] at hparse; cases hparse

/-- Whatever a definition gives can be restored. -/
theorem restorable_of_yields (h : Definition.Yields data items a log) : a.Restorable := by
  -- each transition comes from an item that describes it and joins declared states
  have hitem (t) (ht : t ∈ a.transitions) :
      ∃ item, Definition.Describes a.formalism item t ∧
        Definition.Joined (a.states.map State.name) item := by
    obtain ⟨item, hmem, hdescribes⟩ := exists_of_mem_forall₂ h.described ht
    obtain ⟨hmem, hlabel⟩ := List.mem_filter.1 hmem
    exact ⟨item, hdescribes, h.admissible.joins item hmem hlabel⟩
  refine ⟨formalism_mem_all_of_names h.admissible.formalism,
    ⟨h.admissible.names, fun t ht => ?_, h.admissible.initial⟩, fun t ht => ?_⟩
  · obtain ⟨item, hdescribes, source, hsource, target, htarget, hfrom, hto⟩ := hitem t ht
    obtain rfl := Json.str.inj (Option.some.inj (hfrom.symm.trans hdescribes.source))
    obtain rfl := Json.str.inj (Option.some.inj (hto.symm.trans hdescribes.target))
    exact ⟨hsource, htarget⟩
  · obtain ⟨item, hdescribes, -⟩ := hitem t ht
    obtain ⟨text, hparse⟩ := parse_of_label? hdescribes.label
    exact ⟨Label.formalism_of_parse hparse, Label.legible_of_parse hparse⟩

/-- Whatever is loaded can be restored. -/
theorem restorable_of_ofJson (h : (ofJson data).result = .ok a) : a.Restorable := by
  have hresult : ofJson data = ⟨.ok a, (ofJson data).log⟩ := by rw [← h]
  obtain ⟨items, hyields⟩ := ofJson_eq_ok_iff_yields.1 hresult
  exact restorable_of_yields hyields

/-- Whatever is read from a text can be restored. -/
theorem restorable_of_read {text : Text} (h : (read text).result = .ok a) : a.Restorable := by
  rw [read] at h
  cases hread : Json.read text with
  | ok data => rw [hread] at h; exact restorable_of_ofJson h
  | error e => rw [hread] at h; cases h

/-! ## What is saved -/

/-- A legible label is found again in the item written for its transition. -/
theorem label?_transitionJson {t : Transition} (h : t.label.Legible) :
    Definition.label? t.label.formalism (transitionJson t) = some t.label := by
  show (Label.parse t.label.formalism t.label.text).toOption = some t.label
  rw [Label.parse_text_of_legible h]
  rfl

theorem declares_stateJson (s : State) : Definition.Declares (stateJson s) s :=
  ⟨rfl, rfl, rfl⟩

/-- The definition of a restorable automaton yields the automaton, with an empty log. -/
theorem Restorable.yields (h : a.Restorable) :
    Definition.Yields a.toJson (a.transitions.map transitionJson) a [] := by
  have hlabel (t) (ht : t ∈ a.transitions) :
      Definition.label? a.formalism (transitionJson t) = some t.label := by
    obtain ⟨hformalism, hlegible⟩ := h.labels t ht
    rw [← hformalism, label?_transitionJson hlegible]
  have hread (item) (hitem : item ∈ a.transitions.map transitionJson) :
      (Definition.label? a.formalism item).isSome = true := by
    obtain ⟨t, ht, rfl⟩ := List.mem_map.1 hitem
    rw [hlabel t ht]
    rfl
  refine ⟨⟨⟨_, rfl⟩, Or.inr ⟨rfl, h.formalism⟩, ⟨a.states.map stateJson, Or.inr ⟨_, rfl, rfl⟩, ?_⟩,
    Or.inr ⟨_, rfl, rfl⟩, ?_, h.wellFormed.names, ?_, h.wellFormed.initial⟩, ?_, ?_⟩
  · rw [List.forall₂_map_left_iff, List.forall₂_same]
    exact fun s _ => declares_stateJson s
  · intro item hitem
    obtain ⟨t, -, rfl⟩ := List.mem_map.1 hitem
    exact ⟨rfl, rfl⟩
  · intro item hitem _
    obtain ⟨t, ht, rfl⟩ := List.mem_map.1 hitem
    obtain ⟨hsource, htarget⟩ := h.wellFormed.endpoints t ht
    exact ⟨t.source, hsource, t.target, htarget, rfl, rfl⟩
  · rw [List.filter_eq_self.2 hread, List.forall₂_map_left_iff, List.forall₂_same]
    exact fun t ht => ⟨rfl, rfl, hlabel t ht⟩
  · have hnone : (a.transitions.map transitionJson).filter
        (fun item => (Definition.label? a.formalism item).isNone) = [] :=
      List.filter_eq_nil_iff.2 fun item hitem => by
        simp [Option.isSome_iff_ne_none.1 (hread item hitem)]
    rw [hnone]
    exact .nil

/-- The value written for a restorable automaton gives it back, without a warning. -/
theorem ofJson_toJson (h : a.Restorable) : ofJson a.toJson = ⟨.ok a, []⟩ :=
  ofJson_eq_ok_iff_yields.2 ⟨_, h.yields⟩

theorem wordy_stateJson (s : State) (depth : Nat) : Json.Wordy (depth + 1) (stateJson s) := by
  have hnames : (["name", "initial", "final"] : List Text).Nodup := by decide
  refine .obj hnames ?_
  simp only [List.forall_mem_cons]
  exact ⟨.str _, .bool _, .bool _, nofun⟩

theorem wordy_transitionJson (t : Transition) (depth : Nat) :
    Json.Wordy (depth + 1) (transitionJson t) := by
  have hnames : (["from", "to", "label"] : List Text).Nodup := by decide
  refine .obj hnames ?_
  simp only [List.forall_mem_cons]
  exact ⟨.str _, .str _, .str _, nofun⟩

/-- The members written for an automaton are readable values, two levels deep. -/
theorem wordy_members (a : Automaton) (depth : Nat) :
    ∀ m ∈ a.members, Json.Wordy (depth + 2) m.2 := by
  simp only [members, List.forall_mem_cons]
  refine ⟨.str _, .arr fun v hv => ?_, .arr fun v hv => ?_, nofun⟩
  · obtain ⟨s, -, rfl⟩ := List.mem_map.1 hv
    exact wordy_stateJson s depth
  · obtain ⟨t, -, rfl⟩ := List.mem_map.1 hv
    exact wordy_transitionJson t depth

/-- A definition is nested three deep, and holds texts and truth values. -/
theorem wordy_toJson (a : Automaton) (depth : Nat) : Json.Wordy (depth + 3) a.toJson :=
  have hnames : (["formalism", "states", "transitions"] : List Text).Nodup := by decide
  .obj hnames (a.wordy_members depth)

/-- The text written for a restorable automaton gives it back, without a warning. -/
theorem read_write (h : a.Restorable) : read a.write = ⟨.ok a, []⟩ := by
  have hwordy : Json.Wordy Json.maxDepth a.toJson := wordy_toJson a (Json.maxDepth - 3)
  rw [read, write, hwordy.read_write]
  exact ofJson_toJson h

end Automaton

/-- An automaton that was loaded is loaded again from what is saved of it, without a warning, so
that it is saved and runs as before. -/
theorem read_write_of_loaded {a : Automaton}
    (h : (∃ data, (Automaton.ofJson data).result = .ok a) ∨
      ∃ text, (Automaton.read text).result = .ok a) :
    ∃ b, Automaton.read a.write = ⟨.ok b, []⟩ ∧ b.formalism = a.formalism ∧
      b.states = a.states ∧ b.transitions = a.transitions ∧ b.write = a.write ∧
      ∀ allowance input maxSteps,
        Run.history allowance b input maxSteps = Run.history allowance a input maxSteps := by
  have hrestorable : a.Restorable := by
    rcases h with ⟨data, h⟩ | ⟨text, h⟩
    · exact Automaton.restorable_of_ofJson h
    · exact Automaton.restorable_of_read h
  exact ⟨a, Automaton.read_write hrestorable, rfl, rfl, rfl, rfl, fun _ _ _ => rfl⟩

/-- The second item is left out when the definition is loaded, and the labels of the others come out
in their own written form. -/
theorem read_write_of_loaded_pushdown :
    let data : Json := .obj [("formalism", .str "pda"),
      ("states", .arr [.obj [("name", .str "\"q\n"), ("initial", .int 1)]]),
      ("transitions", .arr
        [.obj [("from", .str "\"q\n"), ("to", .str "\"q\n"), ("label", .str " a,& -> x,y->z")],
          .obj [("from", .str "\"q\n"), ("to", .null), ("label", .str "a")]])]
    let a : Automaton := ⟨.pda, [⟨"\"q\n", true, false⟩],
      [⟨"\"q\n", "\"q\n", .pda "a" Label.epsilon "x,y→z"⟩]⟩
    (Automaton.ofJson data).result = .ok a ∧
      ∃ b, Automaton.read a.write = ⟨.ok b, []⟩ ∧ b.transitions = a.transitions := by
  intro data a
  have hloaded : (Automaton.ofJson data).result = .ok a := rfl
  obtain ⟨b, hread, -, -, htransitions, -⟩ := read_write_of_loaded (.inl ⟨data, hloaded⟩)
  exact ⟨hloaded, b, hread, htransitions⟩

end AutomatonLab
