import AutomatonLab.Automaton.Validity
import Mathlib.Data.List.Nodup

/-!
# What makes an automaton well-formed

`Automaton.WellFormed` says what `Automaton.validate` looks for : the names of the states differ,
the transitions join declared states, and exactly one state is initial (`validate_eq_ok_iff`). So a
name stands for one state (`Automaton.WellFormed.isFinal_iff`), and a run starts in the initial one
(`Automaton.WellFormed.start?_eq_some_iff`).
-/

namespace AutomatonLab

/-- A computation that may fail goes on only with a result. -/
theorem bind_eq_ok_iff {ε α β : Type} {x : Except ε α} {f : α → Except ε β} {b : β} :
    (x >>= f) = .ok b ↔ ∃ a, x = .ok a ∧ f a = .ok b := by
  cases x with
  | error e => exact ⟨nofun, nofun⟩
  | ok a => exact ⟨fun h => ⟨a, rfl, h⟩, fun ⟨_, ha, h⟩ => Except.ok.inj ha ▸ h⟩

/-- Two checks fail at the first one or, if that passes, at the second one. -/
theorem bind_eq_error_iff {ε α β : Type} {x : Except ε α} {f : α → Except ε β} {e : ε} :
    (x >>= f) = .error e ↔ x = .error e ∨ ∃ a, x = .ok a ∧ f a = .error e := by
  cases x with
  | error e' =>
    exact ⟨fun h => .inl (congrArg _ (Except.error.inj h)), fun h => by
      rcases h with h | ⟨a, ha, -⟩
      · exact congrArg _ (Except.error.inj h)
      · cases ha⟩
  | ok a =>
    exact ⟨fun h => .inr ⟨a, rfl, h⟩, fun h => by
      rcases h with h | ⟨a', ha, h⟩
      · cases h
      · exact Except.ok.inj ha ▸ h⟩

/-- A check of all items succeeds if each item passes it. -/
theorem forM_eq_ok_iff {ε α : Type} {check : α → Except ε Unit} {items : List α} :
    items.forM check = .ok () ↔ ∀ x ∈ items, check x = .ok () := by
  induction items with
  | nil => simp [List.forM, pure, Except.pure]
  | cons x rest ih =>
    show (check x >>= fun _ => rest.forM check) = .ok () ↔ _
    rw [bind_eq_ok_iff, List.forall_mem_cons]
    constructor
    · rintro ⟨⟨⟩, hx, hrest⟩
      exact ⟨hx, ih.1 hrest⟩
    · rintro ⟨hx, hrest⟩
      exact ⟨(), hx, ih.2 hrest⟩

/-- No name is repeated exactly if the names differ from each other and from those seen. -/
theorem firstRepeated?_eq_none_iff {seen names : List Text} :
    firstRepeated? seen names = none ↔ names.Nodup ∧ ∀ name ∈ names, name ∉ seen := by
  induction names generalizing seen with
  | nil => simp [firstRepeated?]
  | cons name rest ih =>
    rw [firstRepeated?]
    split
    case isTrue hseen => simp [hseen]
    case isFalse hnew =>
      rw [ih]
      simp only [List.mem_cons, not_or, List.nodup_cons, forall_eq_or_imp]
      constructor
      · rintro ⟨hnodup, hrest⟩
        exact ⟨⟨fun hmem => (hrest name hmem).1 rfl, hnodup⟩, hnew, fun n hn => (hrest n hn).2⟩
      · rintro ⟨⟨hname, hnodup⟩, -, hrest⟩
        exact ⟨hnodup, fun n hn => ⟨fun heq => hname (heq ▸ hn), hrest n hn⟩⟩

/-- The names are accepted exactly if no two states share one. -/
theorem checkNames_eq_ok_iff {states : List State} :
    checkNames states = .ok () ↔ (states.map State.name).Nodup := by
  have hiff : firstRepeated? [] (states.map State.name) = none ↔
      (states.map State.name).Nodup ∧ ∀ name ∈ states.map State.name, name ∉ [] :=
    firstRepeated?_eq_none_iff
  rw [checkNames]
  cases hfirst : firstRepeated? [] (states.map State.name) with
  | none => simpa using hiff.1 hfirst
  | some name => simpa [hfirst] using hiff

/-- A transition is accepted exactly if both its ends are states. -/
theorem checkEndpoints_eq_ok_iff {names : List Text} {t : Transition} :
    t.checkEndpoints names = .ok () ↔ t.source ∈ names ∧ t.target ∈ names := by
  rw [Transition.checkEndpoints]
  split
  case isTrue hsource => simp [hsource]
  case isFalse hsource =>
    split
    case isTrue htarget => simp [htarget]
    case isFalse htarget => simp [not_not.1 hsource, not_not.1 htarget]

/-- Exactly one state has to be initial. -/
theorem checkInitial_eq_ok_iff {states : List State} :
    checkInitial states = .ok () ↔ states.countP State.initial = 1 := by
  simp only [checkInitial]
  split <;> simp_all

namespace Automaton

/-- The names of the states differ, the transitions join declared states, and exactly one state is
initial. -/
structure WellFormed (a : Automaton) : Prop where
  names : (a.states.map State.name).Nodup
  endpoints : ∀ t ∈ a.transitions,
    t.source ∈ a.states.map State.name ∧ t.target ∈ a.states.map State.name
  initial : a.states.countP State.initial = 1

variable {a : Automaton}

/-- The check passes exactly for a well-formed automaton. -/
theorem validate_eq_ok_iff : a.validate = .ok () ↔ a.WellFormed := by
  simp only [validate, bind_eq_ok_iff]
  constructor
  · rintro ⟨⟨⟩, hnames, ⟨⟩, hends, hinitial⟩
    exact ⟨checkNames_eq_ok_iff.1 hnames,
      fun t ht => checkEndpoints_eq_ok_iff.1 (forM_eq_ok_iff.1 hends t ht),
      checkInitial_eq_ok_iff.1 hinitial⟩
  · rintro ⟨hnames, hends, hinitial⟩
    exact ⟨(), checkNames_eq_ok_iff.2 hnames, (),
      forM_eq_ok_iff.2 fun t ht => checkEndpoints_eq_ok_iff.2 (hends t ht),
      checkInitial_eq_ok_iff.2 hinitial⟩

namespace WellFormed

/-- A state is known by its name. -/
theorem state?_of_mem (h : a.WellFormed) {s : State} (hs : s ∈ a.states) :
    a.state? s.name = some s := by
  have hfound : (a.state? s.name).isSome = true :=
    List.find?_isSome.2 ⟨s, hs, beq_self_eq_true _⟩
  obtain ⟨s', hs'⟩ := Option.isSome_iff_exists.1 hfound
  have hname : s'.name = s.name := by simpa using List.find?_some hs'
  rw [hs', List.inj_on_of_nodup_map h.names (List.mem_of_find?_eq_some hs') hs hname]

/-- A name counts as final exactly if it is that of a final state. -/
theorem isFinal_iff (h : a.WellFormed) {name : Text} :
    a.isFinal name = true ↔ ∃ s ∈ a.states, s.name = name ∧ s.final = true := by
  rw [isFinal, Option.any_eq_true]
  constructor
  · rintro ⟨s, hs, hfinal⟩
    exact ⟨s, List.mem_of_find?_eq_some hs, by simpa using List.find?_some hs, hfinal⟩
  · rintro ⟨s, hs, rfl, hfinal⟩
    exact ⟨s, h.state?_of_mem hs, hfinal⟩

/-- The start is the name of the initial state. -/
theorem start?_eq_some_iff (h : a.WellFormed) {name : Text} :
    a.start? = some name ↔ ∃ s ∈ a.states, s.name = name ∧ s.initial = true := by
  have hone := h.initial
  rw [List.countP_eq_length_filter, List.length_eq_one_iff] at hone
  obtain ⟨s₀, hs₀⟩ := hone
  have hmem : ∀ s, s ∈ a.states ∧ s.initial = true ↔ s = s₀ := fun s => by
    rw [← List.mem_filter, hs₀, List.mem_singleton]
  have hstart : a.start? = some s₀.name := by
    rw [start?, ← List.head?_filter, hs₀]
    rfl
  rw [hstart, Option.some_inj]
  constructor
  · rintro rfl
    obtain ⟨hs, hinitial⟩ := (hmem s₀).2 rfl
    exact ⟨s₀, hs, rfl, hinitial⟩
  · rintro ⟨s, hs, rfl, hinitial⟩
    rw [(hmem s).1 ⟨hs, hinitial⟩]

/-- A well-formed automaton has a start. -/
theorem exists_start (h : a.WellFormed) : ∃ s ∈ a.states, a.start? = some s.name := by
  have hpos : 0 < a.states.countP State.initial := by rw [h.initial]; exact Nat.one_pos
  obtain ⟨s, hs, hinitial⟩ := List.countP_pos_iff.1 hpos
  exact ⟨s, hs, h.start?_eq_some_iff.2 ⟨s, hs, rfl, hinitial⟩⟩

end WellFormed

end Automaton

end AutomatonLab
