import AutomatonLab.Proofs.Step
import Mathlib.Data.List.Basic

/-!
# The preference of a pushdown automaton

`Choice.selectable` says what makes a transition of a pushdown automaton apply : it leaves the
state, pops nothing or the top, and reads nothing or the symbol. The transitions that are listed are
the selectable ones (`applicablePda_eq`), those that read a symbol first and each of the two kinds
in the order of declaration, which `stable_applicablePda` says at length. So the one that is taken
can be found without the list (`taken_eq`), and a transition declared after all others is taken only
if there is none to take, or if it reads a symbol and the others do not (`head?_of_appended`).
-/

namespace AutomatonLab

/-- A transition of a pushdown automaton that reads no symbol. -/
def Transition.isSilent (t : Transition) : Bool :=
  match t.label with
  | .pda input _ _ => input == Label.epsilon
  | _ => false

namespace Choice

/-- A transition of a pushdown automaton from `state` that pops nothing or the top, and reads
nothing or the symbol. No text is an absent symbol or an absent top. -/
def selectable (state : Text) (symbol top : Option Text) (t : Transition) : Bool :=
  t.source == state &&
    match t.label with
    | .pda input pop _ =>
      (pop == Label.epsilon || top == some pop) && (input == Label.epsilon || symbol == some input)
    | _ => false

variable {state : Text} {symbol top : Option Text}

/-! ## The two kinds -/

/-- The first class are the selectable transitions that read a symbol. -/
theorem consumesPda_eq (t : Transition) :
    consumesPda state symbol top t = (selectable state symbol top t && !t.isSilent) := by
  cases hlabel : t.label with
  | fa read => simp [consumesPda, matchesPda, selectable, hlabel]
  | pda input pop push => grind [consumesPda, matchesPda, selectable, Transition.isSilent]
  | tm read write direction => simp [consumesPda, matchesPda, selectable, hlabel]

/-- The second class are the selectable transitions that read none. -/
theorem silentPda_eq (t : Transition) :
    silentPda state top t = (selectable state symbol top t && t.isSilent) := by
  cases hlabel : t.label with
  | fa read => simp [silentPda, matchesPda, selectable, hlabel]
  | pda input pop push => grind [silentPda, matchesPda, selectable, Transition.isSilent]
  | tm read write direction => simp [silentPda, matchesPda, selectable, hlabel]

/-- The list is the selectable transitions, divided by whether they read a symbol. -/
theorem applicablePda_eq (ts : List Transition) :
    applicablePda ts state symbol top =
      (ts.filter (selectable state symbol top)).filter (fun t => !t.isSilent) ++
        (ts.filter (selectable state symbol top)).filter Transition.isSilent := by
  have hconsuming : consumesPda state symbol top =
      fun t => !t.isSilent && selectable state symbol top t :=
    funext fun t => by rw [consumesPda_eq, Bool.and_comm]
  have hsilent : silentPda state top = fun t => t.isSilent && selectable state symbol top t :=
    funext fun t => by rw [silentPda_eq, Bool.and_comm]
  rw [applicablePda, hconsuming, hsilent, List.filter_filter, List.filter_filter]

/-! ## Order and multiplicity -/

/-- No transition is lost or repeated by the two classes. -/
theorem perm_applicablePda (ts : List Transition) :
    (applicablePda ts state symbol top).Perm (ts.filter (selectable state symbol top)) := by
  rw [applicablePda_eq]
  refine List.perm_append_comm.trans ?_
  exact List.filter_append_perm Transition.isSilent _

/-- No transition that reads nothing stands before one that reads a symbol. -/
theorem pairwise_applicablePda (ts : List Transition) :
    (applicablePda ts state symbol top).Pairwise
      fun t u => t.isSilent = true → u.isSilent = true := by
  rw [applicablePda_eq, List.pairwise_append]
  refine ⟨?_, ?_, ?_⟩
  · refine List.pairwise_of_forall_mem_list fun t ht u _ hsilent => ?_
    have hreads := (List.mem_filter.1 ht).2
    simp [hsilent] at hreads
  · exact List.pairwise_of_forall_mem_list fun t _ u hu _ => (List.mem_filter.1 hu).2
  · intro t ht u hu _
    exact (List.mem_filter.1 hu).2

/-- Those that read a symbol stand in their order in the list. -/
theorem filter_consuming_applicablePda (ts : List Transition) :
    (applicablePda ts state symbol top).filter (fun t => !t.isSilent) =
      (ts.filter (selectable state symbol top)).filter fun t => !t.isSilent := by
  rw [applicablePda_eq]
  simp +contextual

/-- Those that read none stand in their order too. -/
theorem filter_silent_applicablePda (ts : List Transition) :
    (applicablePda ts state symbol top).filter Transition.isSilent =
      (ts.filter (selectable state symbol top)).filter Transition.isSilent := by
  rw [applicablePda_eq]
  simp +contextual

/-! ## The one that is taken -/

/-- The first of the list is the first selectable one that reads a symbol, or else the first one
that reads nothing. -/
theorem head?_applicablePda_eq (ts : List Transition) :
    (applicablePda ts state symbol top).head? =
      (ts.find? fun t => selectable state symbol top t && !t.isSilent).or
        (ts.find? fun t => selectable state symbol top t && t.isSilent) := by
  rw [applicablePda, List.head?_append, List.head?_filter, List.head?_filter,
    funext consumesPda_eq, funext silentPda_eq]

/-- A transition that is declared after the others is taken in place of none, or, if it reads a
symbol, in place of one that reads nothing. -/
theorem head?_of_appended {ts : List Transition} {t : Transition}
    (h : (applicablePda (ts ++ [t]) state symbol top).head? ≠
      (applicablePda ts state symbol top).head?) :
    selectable state symbol top t = true ∧
      (applicablePda (ts ++ [t]) state symbol top).head? = some t ∧
      ((applicablePda ts state symbol top).head? = none ∨ t.isSilent = false ∧
        ∃ u, (applicablePda ts state symbol top).head? = some u ∧ u.isSilent = true) := by
  simp only [head?_applicablePda_eq, List.find?_append, List.find?_singleton] at h ⊢
  cases hconsuming : ts.find? fun u => selectable state symbol top u && !u.isSilent with
  | some u => simp [hconsuming] at h
  | none =>
    cases hsilent : ts.find? fun u => selectable state symbol top u && u.isSilent with
    | some u =>
      have hu := List.find?_some hsilent
      grind
    | none => grind

/-- The list of a pushdown automaton has exactly the selectable transitions, each as often as it is
declared, with those that read a symbol first and each kind in the order of declaration. The first
of it is the first selectable one that reads a symbol, or else the first one that reads nothing, and
a further transition changes that only if none was taken, or if it reads a symbol and the one that
was taken does not. -/
theorem stable_applicablePda (ts : List Transition) (state : Text) (symbol top : Option Text) :
    let listed := applicablePda ts state symbol top
    let declared := ts.filter (selectable state symbol top)
    listed.Perm declared ∧
      (listed.Pairwise fun t u => t.isSilent = true → u.isSilent = true) ∧
      (listed.filter fun t => !t.isSilent) = (declared.filter fun t => !t.isSilent) ∧
      listed.filter Transition.isSilent = declared.filter Transition.isSilent ∧
      listed.head? = (ts.find? fun t => selectable state symbol top t && !t.isSilent).or
        (ts.find? fun t => selectable state symbol top t && t.isSilent) ∧
      ∀ t, (applicablePda (ts ++ [t]) state symbol top).head? ≠ listed.head? →
        selectable state symbol top t = true ∧
          (applicablePda (ts ++ [t]) state symbol top).head? = some t ∧
          (listed.head? = none ∨ t.isSilent = false ∧
            ∃ u, listed.head? = some u ∧ u.isSilent = true) :=
  ⟨perm_applicablePda ts, pairwise_applicablePda ts, filter_consuming_applicablePda ts,
    filter_silent_applicablePda ts, head?_applicablePda_eq ts, fun _ => head?_of_appended⟩

/-- Before a transition that reads `a` is declared, the one that reads nothing is taken. -/
theorem stable_applicablePda_appended :
    let silent : Transition := ⟨"q", "q", .pda Label.epsilon "Z" Label.epsilon⟩
    let reading : Transition := ⟨"q", "p", .pda "a" Label.epsilon "A"⟩
    (applicablePda [silent] "q" (some "a") (some "Z")).head? = some silent ∧
      (applicablePda ([silent] ++ [reading]) "q" (some "a") (some "Z")).head? = some reading :=
  ⟨by decide, ((stable_applicablePda [⟨"q", "q", .pda Label.epsilon "Z" Label.epsilon⟩] "q"
    (some "a") (some "Z")).2.2.2.2.2 ⟨"q", "p", .pda "a" Label.epsilon "A"⟩ (by decide)).2.1⟩

end Choice

end AutomatonLab
