import AutomatonLab.Catalog
import AutomatonLab.Proofs.Finish
import AutomatonLab.Proofs.WellFormed

/-!
# Transitions that a run does not take

A run that takes the first eligible transition takes it also if others are left out, wherever they
stand : what is left out before it was not eligible, and what is left out behind it was not looked
at (`find?_keptAt`). So an automaton does the same steps without the transitions that it does not
take (`Step.pruned`), and follows the same computation (`Computation.pruned`); the order of its
states does not matter, since a state is known by its name (`Pruned.start?_eq`,
`Pruned.isFinal_eq`).

Whole runs therefore depend on no more than the transitions they take : `history_pruned` compares
them, with a limit and without one.
-/

namespace AutomatonLab

/-! ## Lists of which some items are kept -/

section Kept

variable {α : Type} {p : α → Bool} {keep : Nat → Bool} {x : α} {xs : List α}

/-- The items at the positions for which `keep` holds, in their order. -/
def keptAt (keep : Nat → Bool) (xs : List α) : List α :=
  (xs.zipIdx.filter fun p => keep p.2).map Prod.fst

/-- The head of a list is kept or not, and the rest by the next positions. -/
theorem keptAt_cons (x : α) (xs : List α) : keptAt keep (x :: xs) =
    if keep 0 then x :: keptAt (fun i => keep (i + 1)) xs
    else keptAt (fun i => keep (i + 1)) xs := by
  have hrest : ((xs.zipIdx 1).filter fun p => keep p.2).map Prod.fst =
      keptAt (fun i => keep (i + 1)) xs := by
    rw [List.zipIdx_succ, List.filter_map, List.map_map]
    rfl
  rw [keptAt, List.zipIdx_cons, List.filter_cons, Nat.zero_add]
  split
  · rw [List.map_cons, hrest]
  · exact hrest

/-- Nothing is kept that was not there. -/
theorem keptAt_subset : keptAt keep xs ⊆ xs := by
  intro x hx
  obtain ⟨⟨y, i⟩, hy, rfl⟩ := List.mem_map.1 hx
  exact List.fst_mem_of_mem_zipIdx (List.mem_filter.1 hy).1

/-- The item that is found is found at the first position where it stands. -/
theorem findIdx_eq_idxOf [BEq α] [LawfulBEq α] (h : xs.find? p = some x) :
    xs.findIdx p = xs.idxOf x := by
  induction xs with
  | nil => cases h
  | cons y ys ih =>
    rw [List.find?_cons] at h
    cases hy : p y with
    | true =>
      rw [hy] at h
      obtain rfl := Option.some.inj h
      simp [List.findIdx_cons, hy]
    | false =>
      rw [hy] at h
      have hne : y ≠ x := by
        rintro rfl
        rw [List.find?_some h] at hy
        cases hy
      rw [List.findIdx_cons, hy, List.idxOf_cons, beq_false_of_ne hne, ih h]

/-- The item that is found is also found if it is kept. -/
theorem find?_keptAt (h : xs.find? p = some x) (hkeep : keep (xs.findIdx p) = true) :
    (keptAt keep xs).find? p = some x := by
  induction xs generalizing keep with
  | nil => cases h
  | cons y ys ih =>
    rw [List.find?_cons] at h
    rw [List.findIdx_cons] at hkeep
    rw [keptAt_cons]
    cases hy : p y with
    | true =>
      simp only [hy, cond_true] at hkeep h
      rw [if_pos hkeep, List.find?_cons, hy]
      exact h
    | false =>
      simp only [hy, cond_false] at hkeep h
      have hrest : (keptAt (fun i => keep (i + 1)) ys).find? p = some x := ih h hkeep
      split
      · rw [List.find?_cons, hy]
        exact hrest
      · exact hrest

/-- What is not there is not found among what is kept. -/
theorem find?_keptAt_eq_none (h : xs.find? p = none) : (keptAt keep xs).find? p = none :=
  List.find?_eq_none.2 fun x hx => List.find?_eq_none.1 h x (keptAt_subset hx)

end Kept

/-! ## Automata of which some transitions are kept -/

/-- `b` has the transitions of `a` at the positions for which `keep` holds, in their order, and the
states of `a` in any order. -/
structure Automaton.Pruned (a : Automaton) (keep : Nat → Bool) (b : Automaton) : Prop where
  formalism : b.formalism = a.formalism
  states : b.states.Perm a.states
  transitions : b.transitions = keptAt keep a.transitions

/-- The positions of the transitions that the events have taken. Of equal transitions the first one
is taken. -/
def Automaton.taken (a : Automaton) (es : List Event) : List Nat :=
  (es.filterMap Event.transition).map fun t => a.transitions.idxOf t

variable {a b : Automaton} {keep : Nat → Bool} {c c' : Configuration} {t : Option Transition}
  {u : Transition} {s : Status} {symbol w : Text} {es : List Event} {g : Nat}

/-- The last event adds its transition to those that were taken. -/
theorem Automaton.taken_snoc (a : Automaton) (es : List Event) (ev : Event) :
    a.taken (es ++ [ev]) =
      a.taken es ++ (ev.transition.map fun t => a.transitions.idxOf t).toList := by
  rcases ev with ⟨_ | u, _, _, _⟩ <;> simp [taken]

namespace Automaton.Pruned

/-- The labels that are kept are of the formalism. -/
theorem typed (hb : a.Pruned keep b) (ha : a.Typed) : b.Typed := by
  refine ⟨hb.formalism ▸ ha.known, fun t ht => ?_⟩
  rw [hb.transitions] at ht
  exact (ha.labels t (keptAt_subset ht)).trans hb.formalism.symm

/-- Without some transitions, and with its states in another order, an automaton stays
well-formed. -/
theorem wellFormed (hb : a.Pruned keep b) (ha : a.WellFormed) : b.WellFormed := by
  have hnames := hb.states.map State.name
  refine ⟨hnames.nodup_iff.2 ha.names, fun t ht => ?_, ?_⟩
  · rw [hb.transitions] at ht
    simp only [hnames.mem_iff]
    exact ha.endpoints t (keptAt_subset ht)
  · rw [hb.states.countP_eq]
    exact ha.initial

/-- The initial state is the same in every order of the states. -/
theorem start?_eq (hb : a.Pruned keep b) (ha : a.WellFormed) : b.start? = a.start? := by
  obtain ⟨q, hq, hstart⟩ := ha.exists_start
  obtain ⟨q', hq', hname, hinitial⟩ := (ha.start?_eq_some_iff).1 hstart
  rw [hstart]
  exact ((hb.wellFormed ha).start?_eq_some_iff).2
    ⟨q', hb.states.mem_iff.2 hq', hname, hinitial⟩

/-- The final states are the same in every order. -/
theorem isFinal_eq (hb : a.Pruned keep b) (ha : a.WellFormed) (name : Text) :
    b.isFinal name = a.isFinal name := by
  rw [Bool.eq_iff_iff, (hb.wellFormed ha).isFinal_iff, ha.isFinal_iff]
  simp only [hb.states.mem_iff]

/-- A run starts alike. -/
theorem start_eq (hb : a.Pruned keep b) (ha : a.WellFormed) (w : Text) :
    Configuration.start b w = Configuration.start a w := by
  rw [Configuration.start, Configuration.start, hb.start?_eq ha, hb.formalism]

theorem config_isFinal_eq (hb : a.Pruned keep b) (ha : a.WellFormed) (c : Configuration) :
    c.isFinal b = c.isFinal a := by
  rw [Configuration.isFinal, Configuration.isFinal]
  exact congrArg c.state.any (funext (hb.isFinal_eq ha))

/-- The first transition that meets a condition stays the first one if it is kept. -/
theorem find?_eq_some (hb : a.Pruned keep b) {p : Transition → Bool}
    (h : a.transitions.find? p = some u) (hkeep : keep (a.transitions.idxOf u) = true) :
    b.transitions.find? p = some u := by
  rw [hb.transitions]
  exact find?_keptAt h (by rwa [findIdx_eq_idxOf h])

theorem find?_eq_none (hb : a.Pruned keep b) {p : Transition → Bool}
    (h : a.transitions.find? p = none) : b.transitions.find? p = none := by
  rw [hb.transitions]
  exact find?_keptAt_eq_none h

/-- If no transition reads the symbol, none does after others are left out, so a pushdown automaton
comes again to those that read nothing. -/
theorem firstEligible?_eq_some (hb : a.Pruned keep b) (h : c.firstEligible? a symbol = some u)
    (hkeep : keep (a.transitions.idxOf u) = true) : c.firstEligible? b symbol = some u := by
  simp only [Configuration.firstEligible?, hb.formalism] at h ⊢
  split at h
  case isTrue hf =>
    rw [if_pos hf]
    rcases Option.or_eq_some_iff.1 h with h | ⟨hnone, h⟩
    · rw [hb.find?_eq_some h hkeep, Option.some_or]
    · rw [hb.find?_eq_none hnone, Option.none_or, hb.find?_eq_some h hkeep]
  case isFalse hf =>
    rw [if_neg hf]
    exact hb.find?_eq_some h hkeep

/-- Where no transition can be taken, none can when some are left out. -/
theorem firstEligible?_eq_none (hb : a.Pruned keep b) (h : c.firstEligible? a symbol = none) :
    c.firstEligible? b symbol = none := by
  simp only [Configuration.firstEligible?, hb.formalism] at h ⊢
  split at h
  case isTrue hf =>
    obtain ⟨hreads, hsilent⟩ := Option.or_eq_none_iff.1 h
    rw [if_pos hf, hb.find?_eq_none hreads, hb.find?_eq_none hsilent, Option.none_or]
  case isFalse hf =>
    rw [if_neg hf]
    exact hb.find?_eq_none h

end Automaton.Pruned

/-! ## Steps and computations -/

/-- A step is the same without transitions that it does not take. -/
theorem Step.pruned (hb : a.Pruned keep b) (ha : a.WellFormed) (h : Step a c t c' s)
    (hkeep : ∀ u, t = some u → keep (a.transitions.idxOf u) = true) : Step b c t c' s := by
  have hf := hb.formalism
  have hfinal := hb.config_isFinal_eq ha c
  cases h with
  | endOfInput hne hn =>
    rw [← hfinal]
    exact .endOfInput (hf ▸ hne) hn
  | blocked hne hn hu => exact .blocked (hf ▸ hne) hn (hb.firstEligible?_eq_none hu)
  | readFa hfa hn hu hl =>
    exact .readFa (hf.trans hfa) hn (hb.firstEligible?_eq_some hu (hkeep _ rfl)) hl
  | readPda hpda hn hu hl hp =>
    exact .readPda (hf.trans hpda) hn (hb.firstEligible?_eq_some hu (hkeep _ rfl)) hl hp
  | final htm hends => exact .final (hf.trans htm) (hfinal.trans hends)
  | stuck htm hends hu =>
    exact .stuck (hf.trans htm) (hfinal.trans hends) (hb.firstEligible?_eq_none hu)
  | readTm htm hends hu hl =>
    exact .readTm (hf.trans htm) (hfinal.trans hends)
      (hb.firstEligible?_eq_some hu (hkeep _ rfl)) hl

/-- A computation is the same without transitions that it does not take. -/
theorem Computation.pruned (hb : a.Pruned keep b) (ha : a.WellFormed)
    (h : Computation a w g es c s) (hkeep : ∀ i ∈ a.taken es, keep i = true) :
    Computation b w g es c s := by
  induction h with
  | start =>
    rw [← hb.start_eq ha]
    exact .start
  | step _ hs hstep ih =>
    rw [Automaton.taken_snoc] at hkeep
    refine (ih fun i hi => hkeep i (List.mem_append_left _ hi)).step hs
      (hstep.pruned hb ha fun u hu => hkeep _ (List.mem_append_right _ ?_))
    simp [hu]

/-- If all computations go through kept transitions, nothing else is computed with these alone. -/
theorem Computation.of_pruned (hb : a.Pruned keep b) (ha : a.WellFormed) (htyped : a.Typed)
    (hkeep : ∀ {es c s}, Computation a w g es c s → ∀ i ∈ a.taken es, keep i = true)
    (h : Computation b w g es c s) : Computation a w g es c s := by
  induction h with
  | start =>
    rw [hb.start_eq ha]
    exact .start
  | step h₀ hs hstep ih =>
    obtain ⟨u, d, v, hstep'⟩ := exists_step htyped ih.cursor_nonneg
    have hnext := ih.step hs hstep'
    have hpruned := hstep'.pruned hb ha fun x hx => hkeep hnext _ (by
      rw [Automaton.taken_snoc, hx]
      exact List.mem_append_right _ (by simp))
    obtain ⟨rfl, rfl, rfl⟩ := hstep.unique (hb.typed htyped) h₀.cursor_nonneg hpruned
    exact hnext

/-! ## Whole runs -/

/-- A computation up to a limit stays the same if the transitions it takes are kept. -/
theorem Capped.pruned {limit : Option Int} (hb : a.Pruned keep b) (ha : a.WellFormed)
    (h : Capped a w g limit es c s) (hkeep : ∀ i ∈ a.taken es, keep i = true) :
    Capped b w g limit es c s := by
  cases h with
  | halted h hs hlimit => exact .halted (h.pruned hb ha hkeep) hs hlimit
  | paused h hlimit => exact .paused (h.pruned hb ha hkeep) hlimit

/-- A run with a limit returns. -/
theorem exists_history_of_limit (htyped : a.Typed) (hv : a.validate = .ok ()) (allowance : Nat)
    (w : Text) (N : Int) :
    ∃ es v, (Run.history allowance a w (some N)).result = .ok (es, v) := by
  rcases Int.lt_or_le 0 N with hN | hN
  · obtain ⟨es, -, v, -, hresult⟩ :=
      history_of_limit allowance w htyped hv (Int.add_one_le_of_lt hN)
    exact ⟨es, v, hresult⟩
  · exact ⟨_, _, history_of_nonpos hv hN⟩

/-- The history of a run stays the same, whether the run ends or its limit does. -/
theorem history_of_pruned {limit : Option Int} {allowance : Nat} {v : Status}
    (hb : a.Pruned keep b) (htyped : a.Typed) (hv : a.validate = .ok ())
    (hkeep : ∀ i ∈ a.taken es, keep i = true)
    (h : (Run.history allowance a w limit).result = .ok (es, v)) :
    (Run.history allowance b w limit).result = .ok (es, v) := by
  have ha := Automaton.validate_eq_ok_iff.1 hv
  have hv' : b.validate = .ok () := Automaton.validate_eq_ok_iff.2 (hb.wellFormed ha)
  exact history_of_same_end htyped hv (hb.typed htyped) hv'
    (fun {c} hcapped => ⟨c, hcapped.pruned hb ha hkeep⟩) h

/-- A run depends only on the transitions that it takes. A run with a limit returns, and whatever a
run returns, with a limit or without one, is also returned if the automaton keeps the transitions
taken, has lost any others, and has its states in another order. Where all that is ever taken is
kept, a run returns nothing else either : one that goes on for ever still does. -/
theorem history_pruned (htyped : a.Typed) (hv : a.validate = .ok ()) (hb : a.Pruned keep b)
    (w : Text) (allowance : Nat) :
    (∀ N, ∃ es v, (Run.history allowance a w (some N)).result = .ok (es, v)) ∧
    (∀ limit es v, (Run.history allowance a w limit).result = .ok (es, v) →
      (∀ i ∈ a.taken es, keep i = true) →
      (Run.history allowance b w limit).result = .ok (es, v)) ∧
    ((∀ es c s, Computation a w 1 es c s → ∀ i ∈ a.taken es, keep i = true) →
      ∀ es v, (Run.history allowance b w none).result = .ok (es, v) →
        (Run.history allowance a w none).result = .ok (es, v)) := by
  have ha := Automaton.validate_eq_ok_iff.1 hv
  refine ⟨exists_history_of_limit htyped hv allowance w,
    fun limit es v h hkeep => history_of_pruned hb htyped hv hkeep h, fun hkeep es v h => ?_⟩
  rw [history_eq_ok_iff (hb.typed htyped) (Automaton.validate_eq_ok_iff.2 (hb.wellFormed ha))] at h
  obtain ⟨⟨c, hes⟩, hterminal, hroom⟩ := h
  exact (history_eq_ok_iff htyped hv).2
    ⟨⟨c, hes.of_pruned hb ha htyped fun h => hkeep _ _ _ h⟩, hterminal, hroom⟩

/-- The word `ab` takes the first two transitions of the automaton, and the states are listed from
the end. -/
theorem history_pruned_palindrome :
    Catalog.palindrome.automaton.Typed ∧ Catalog.palindrome.automaton.validate = .ok () ∧
    ∃ b es v, Catalog.palindrome.automaton.Pruned (fun i => decide (i < 2)) b ∧
      b.transitions.length = 2 ∧ b.states = Catalog.palindrome.automaton.states.reverse ∧
      (Run.history 4 Catalog.palindrome.automaton "ab" none).result = .ok (es, v) ∧
      Catalog.palindrome.automaton.taken es = [0, 1] ∧
      (Run.history 4 b "ab" none).result = .ok (es, v) := by
  have htyped : Catalog.palindrome.automaton.Typed := by decide
  have hv : Catalog.palindrome.automaton.validate = .ok () := rfl
  have hb : Catalog.palindrome.automaton.Pruned (fun i => decide (i < 2))
      ⟨.pda, Catalog.palindrome.automaton.states.reverse,
        keptAt (fun i => decide (i < 2)) Catalog.palindrome.automaton.transitions⟩ :=
    ⟨rfl, List.reverse_perm _, rfl⟩
  obtain ⟨-, hruns, -⟩ := history_pruned htyped hv hb "ab" 4
  have hrun : ∃ es v, (Run.history 4 Catalog.palindrome.automaton "ab" none).result =
      .ok (es, v) ∧ Catalog.palindrome.automaton.taken es = [0, 1] := ⟨_, _, rfl, by decide⟩
  obtain ⟨es, v, hrun, htaken⟩ := hrun
  refine ⟨htyped, hv, _, es, v, hb, rfl, rfl, hrun, htaken, hruns none es v hrun fun i hi => ?_⟩
  rw [htaken] at hi
  revert i
  decide

end AutomatonLab
