import AutomatonLab.Proofs.Bounds
import AutomatonLab.Proofs.Finish
import Mathlib.Data.Finset.Card
import Mathlib.Logic.Relation

/-!
# Runs that must end

A run ends if some quantity falls with every transition, and then takes no more transitions than
that quantity is at the start (`Lowers.exists_finishes`). Where every transition reads, the quantity
is the number of symbols that are unread. A pushdown automaton may also take transitions that read
nothing; these lead from state to state (`Automaton.Silent`), and if they close no cycle, the number
of states that can still be reached by them falls with each one (`Automaton.silentReach_lt`). A
transition that reads may raise that number again, but not to the number of all states; so the
unread symbols, each with the weight of all states, outweigh it (`Configuration.weight`).

Hence the automatic runs of these automata return, without any limit (`run_ends`).
-/

namespace AutomatonLab

/-- Every transition of the computation of `a` on `w` lowers the quantity. -/
def Lowers (a : Automaton) (w : Text) (μ : Configuration → Nat) : Prop :=
  ∀ {es c s u c' s'}, Computation a w 1 es c s → s.isTerminal = false →
    Step a c (some u) c' s' → μ c' < μ c

variable {a : Automaton} {w : Text} {μ : Configuration → Nat} {c c' : Configuration}
  {es : List Event} {s : Status} {u : Transition}

/-- From where a computation stands it takes no more transitions than the quantity allows. -/
theorem Lowers.finishes_of_computation (hμ : Lowers a w μ) (ha : a.Typed)
    (h : Computation a w 1 es c s) (hs : s.isTerminal = false) :
    ∃ k ≤ μ c, ∃ d v, Finishes a c k d v := by
  induction hn : μ c using Nat.strong_induction_on generalizing c es s with
  | _ n ih =>
    obtain ⟨t, c', s', hstep⟩ := exists_step ha h.cursor_nonneg
    cases t with
    | none =>
      obtain rfl := hstep.halted.2
      exact ⟨0, Nat.zero_le n, c', s', .halt hstep⟩
    | some u =>
      obtain rfl := hstep.running_of_taken
      have hlt := hμ h hs hstep
      obtain ⟨k, hk, d, v, hd⟩ := ih (μ c') (by omega) (h.step hs hstep) rfl rfl
      exact ⟨k + 1, by omega, d, v, .step hstep hd⟩

/-- A measure that every step lowers bounds the number of steps. -/
theorem Lowers.exists_finishes (hμ : Lowers a w μ) (ha : a.Typed) :
    ∃ k ≤ μ (.start a w), ∃ d v, Finishes a (.start a w) k d v :=
  hμ.finishes_of_computation ha .start rfl

/-! ## Symbols that are unread -/

/-- The number of symbols that are left of the input. -/
def Configuration.unread (c : Configuration) : Nat :=
  (c.input.length - c.cursor).toNat

theorem Configuration.unread_start (a : Automaton) (w : Text) :
    (Configuration.start a w).unread = w.length := by
  simp [unread, start]

/-- A transition uses up what it reads. -/
theorem Step.unread_add (h : Step a c (some u) c' s) (hc : 0 ≤ c.cursor)
    (hle : c.cursor ≤ c.input.length) :
    c'.unread + u.label.input?.toList.length = c.unread := by
  have hcursor := h.cursor_eq
  have hinput : c'.input.length = c.input.length := congrArg List.length h.input_eq
  have hle' := h.cursor_le_length hc hle
  simp only [Configuration.unread]
  omega

/-- If every transition reads a symbol, the unread input gets shorter. -/
theorem lowers_unread (hreads : ∀ t ∈ a.transitions, t.label.input? ≠ none) :
    Lowers a w Configuration.unread := by
  intro es c s u c' s' h _ hstep
  obtain ⟨symbol, hsymbol⟩ := Option.ne_none_iff_exists'.1 (hreads u hstep.joins.1)
  have hunread := hstep.unread_add h.cursor_nonneg h.cursor_le_length
  rw [hsymbol, Option.toList_some, List.length_singleton] at hunread
  omega

/-! ## Transitions that read nothing -/

namespace Automaton

/-- Some transition leads from `p` to `q` and reads nothing. -/
def Silent (a : Automaton) (p q : Text) : Prop :=
  ∃ t ∈ a.transitions, t.label.input? = none ∧ t.source = p ∧ t.target = q

open Classical in
/-- The number of states that can be reached from `p` by transitions that read nothing, at least one
of them. -/
noncomputable def silentReach (a : Automaton) (p : Text) : Nat :=
  ((a.states.map State.name).toFinset.filter (Relation.TransGen a.Silent p)).card

variable {p q : Text}

/-- Without a cycle no state reaches itself. -/
theorem silentReach_lt_length (hacyclic : ∀ q, ¬Relation.TransGen a.Silent q q)
    (hp : p ∈ a.states.map State.name) : a.silentReach p < a.states.length := by
  classical
  calc a.silentReach p
      < (a.states.map State.name).toFinset.card := by
        refine Finset.card_lt_card (Finset.filter_ssubset.2 ⟨p, ?_, hacyclic p⟩)
        exact List.mem_toFinset.2 hp
    _ ≤ (a.states.map State.name).length := List.toFinset_card_le _
    _ = a.states.length := List.length_map _

/-- What the next state reaches the present one reaches too, and the next state besides. -/
theorem silentReach_lt (hacyclic : ∀ q, ¬Relation.TransGen a.Silent q q) (h : a.Silent p q)
    (hq : q ∈ a.states.map State.name) : a.silentReach q < a.silentReach p := by
  classical
  refine Finset.card_lt_card ((Finset.ssubset_iff_of_subset ?_).2 ⟨q, ?_, ?_⟩)
  · exact Finset.monotone_filter_right _ fun _ _ hr => .head h hr
  · exact Finset.mem_filter.2 ⟨List.mem_toFinset.2 hq, .single h⟩
  · exact fun hmem => hacyclic q (Finset.mem_filter.1 hmem).2

end Automaton

/-- Each unread symbol counts for all states, and the present state for those that it reaches
without reading. -/
noncomputable def Configuration.weight (a : Automaton) (c : Configuration) : Nat :=
  c.unread * a.states.length + c.state.elim 0 a.silentReach

/-- If no cycle is silent, the weight of the configurations falls. -/
theorem lowers_weight (ha : a.WellFormed) (hacyclic : ∀ q, ¬Relation.TransGen a.Silent q q) :
    Lowers a w (Configuration.weight a) := by
  intro es c s u c' s' h _ hstep
  obtain ⟨hu, hsource, htarget⟩ := hstep.joins
  have hunread := hstep.unread_add h.cursor_nonneg h.cursor_le_length
  have hlt := Automaton.silentReach_lt_length hacyclic (ha.endpoints u hu).2
  simp only [Configuration.weight, hsource, htarget, Option.elim_some]
  cases hread : u.label.input? with
  | none =>
    have hfalls := Automaton.silentReach_lt hacyclic ⟨u, hu, hread, rfl, rfl⟩ (ha.endpoints u hu).2
    rw [hread, Option.toList_none, List.length_nil, Nat.add_zero] at hunread
    rw [hunread]
    exact Nat.add_lt_add_left hfalls _
  | some symbol =>
    rw [hread, Option.toList_some, List.length_singleton] at hunread
    rw [← hunread, Nat.succ_mul]
    omega

/-- The weight of the start is bounded by the symbols and the states. -/
theorem Configuration.weight_start_le (ha : a.WellFormed)
    (hacyclic : ∀ q, ¬Relation.TransGen a.Silent q q) (w : Text) :
    (Configuration.start a w).weight a ≤ (w.length + 1) * a.states.length := by
  obtain ⟨q, hq, hstart⟩ := ha.exists_start
  have hlt := Automaton.silentReach_lt_length hacyclic (List.mem_map_of_mem (f := State.name) hq)
  have hstate : (Configuration.start a w).state = some q.name := hstart
  rw [weight, hstate, unread_start, Option.elim_some, Nat.succ_mul]
  omega

/-! ## Runs without a limit -/

namespace Control

variable {σ : Type} {notify : Notify σ} {delay : Int} {owner : Nat} {outside : σ} {d : Desk σ}

/-- The automatic run returns, however large its allowance is once it suffices, and has ended by
itself after at most `bound` transitions. -/
def RunEnds (notify : Notify σ) (d : Desk σ) (bound : Nat) : Prop :=
  ∃ k ≤ bound, ∃ c v, ∀ allowance ≥ k + 2, ∃ d', exec (run notify allowance) d = (.ok true, d') ∧
    d'.engine.Ended k c v

/-- An automatic run ends within the measure of its start. -/
theorem runEnds_of_lowers {bound : Nat} (ha : a.Typed) (hn : Passive notify)
    (hd : Desk.start a w delay false none none owner outside = .ok d) (hμ : Lowers a w μ)
    (hbound : μ (.start a w) ≤ bound) : RunEnds notify d bound := by
  obtain ⟨k, hk, c, v, hc⟩ := hμ.exists_finishes ha
  exact ⟨k, hk.trans hbound, c, v, fun _ hroom => exec_run_finishes ha hn hd hc hroom⟩

/-- A run that reads with every step ends within the length of its input. -/
theorem runEnds_of_reads (ha : a.Typed) (hn : Passive notify)
    (hd : Desk.start a w delay false none none owner outside = .ok d)
    (hreads : ∀ t ∈ a.transitions, t.label.input? ≠ none) : RunEnds notify d w.length :=
  runEnds_of_lowers ha hn hd (lowers_unread hreads) (Configuration.unread_start a w).le

end Control

open Control in
/-- Without timers and without a limit the automatic run of a finite automaton ends after at most as
many transitions as the input has symbols, and so does that of a pushdown automaton that always
reads. If a pushdown automaton has no cycle of transitions that read nothing, its run ends after at
most as many transitions as it has states for each symbol, and once more. -/
theorem run_ends {σ : Type} {notify : Notify σ} {delay : Int} {owner : Nat} {outside : σ}
    {d : Desk σ} (ha : a.Typed) (hn : Passive notify)
    (hd : Desk.start a w delay false none none owner outside = .ok d) :
    (a.formalism = .fa → RunEnds notify d w.length) ∧
    (a.formalism = .pda → (∀ t ∈ a.transitions, t.label.input? ≠ none) →
      RunEnds notify d w.length) ∧
    (a.formalism = .pda → (∀ q, ¬Relation.TransGen a.Silent q q) →
      RunEnds notify d ((w.length + 1) * a.states.length)) := by
  refine ⟨fun hf => ?_, fun _ hreads => runEnds_of_reads ha hn hd hreads, fun _ hacyclic => ?_⟩
  · exact runEnds_of_reads ha hn hd (ha.reads_of_fa hf)
  · have hwell := Automaton.validate_eq_ok_iff.1 (Desk.start_ok hd).1
    exact runEnds_of_lowers ha hn hd (lowers_weight hwell hacyclic)
      (Configuration.weight_start_le hwell hacyclic w)

open Control in
/-- Before the letter that it cannot push, the pushdown automaton takes both transitions that read
nothing. -/
theorem run_ends_palindrome :
    let quiet : Notify Unit := fun _ => pure ()
    let a := Catalog.palindrome.automaton
    a.Typed ∧ Passive quiet ∧ a.formalism = .pda ∧ (∀ q, ¬Relation.TransGen a.Silent q q) ∧
      ∃ d, Desk.start a "c" 200 false none none 0 () = .ok d ∧ RunEnds quiet d 6 ∧
        (exec (run quiet 4) d).2.engine.steps = 2 := by
  intro quiet a
  have ha : a.Typed := by decide
  have hn : Passive quiet := fun _ d => ⟨d.outside, rfl⟩
  have hacyclic : ∀ q, ¬Relation.TransGen a.Silent q q := by
    let depth (q : Text) : Nat := if q = "q0" then 0 else if q = "q1" then 1 else 2
    have hdeeper : ∀ p q, a.Silent p q → depth p < depth q := by
      rintro p q ⟨t, ht, hread, rfl, rfl⟩
      have hall : ∀ t ∈ a.transitions, t.label.input? = none →
          depth t.source < depth t.target := by decide
      exact hall t ht hread
    intro q hq
    have hlt := hq.lift depth hdeeper
    rw [Relation.transGen_eq_self] at hlt
    exact Nat.lt_irrefl _ hlt
  obtain ⟨d, hd⟩ : ∃ d, Desk.start a "c" 200 false none none 0 () = .ok d := ⟨_, rfl⟩
  refine ⟨ha, hn, rfl, hacyclic, d, hd, (run_ends ha hn hd).2.2 rfl hacyclic, ?_⟩
  cases hd
  rfl

end AutomatonLab
