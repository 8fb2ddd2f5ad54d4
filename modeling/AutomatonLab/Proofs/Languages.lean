import AutomatonLab.Proofs.Stages
import Mathlib.Algebra.Group.Nat.Even

/-!
# Languages of the catalog

A finite automaton goes from state to state with the letters of a word, each time along the first
transition that reads the letter (`Automaton.reach?`). It accepts the words that lead from the
initial state to a final one, and rejects all others (`Run.decides_of_reach`). Hence the languages
of the three finite automata of the catalog : along a word of their two letters the state that is
reached says what has been read, and with any other letter no state is reached.

The pushdown automaton `Catalog.palindrome` accepts no word at all. It could leave its first state
before any letter, by a transition that reads nothing; but the transitions that read come first, so
it pushes one letter after the other and stops at the end of the input in a state that is not final
(`ends_unfolded`). Only at a letter that it cannot push does it leave, and then it comes to the
final state with that letter unread (`ends_foreign`). These are all languages but two
(`history_catalog_languages`).
-/

namespace AutomatonLab

/-- The run of `a` on `w` without a limit ends, and it accepts exactly if `p` holds. -/
structure Run.Decides (allowance : Nat) (a : Automaton) (w : Text) (p : Prop) : Prop where
  accepts : p → ∃ es, (Run.history allowance a w none).result = .ok (es, .accepted)
  rejects : ¬p → ∃ es, (Run.history allowance a w none).result = .ok (es, .rejected)

/-- Which words are accepted may be said in other words. -/
theorem Run.Decides.congr {allowance : Nat} {a : Automaton} {w : Text} {p q : Prop}
    (h : Run.Decides allowance a w p) (hpq : p ↔ q) : Run.Decides allowance a w q :=
  ⟨fun hq => h.accepts (hpq.2 hq), fun hq => h.rejects fun hp => hq (hpq.1 hp)⟩

/-- The run of `a` on `w` without a limit rejects after `k` transitions, in the state `q` and with
`n` letters read. -/
def Run.RejectsAt (allowance : Nat) (a : Automaton) (w : Text) (k : Nat) (q : Text) (n : Nat) :
    Prop :=
  ∃ es last, (Run.history allowance a w none).result = .ok (es ++ [last], .rejected) ∧
    es.length = k ∧ last.snapshot.state = some q ∧ last.snapshot.cursor = (n : Int)

/-- A run that is rejected somewhere is rejected. -/
theorem Run.RejectsAt.rejects {allowance : Nat} {a : Automaton} {w : Text} {k n : Nat} {q : Text}
    (h : Run.RejectsAt allowance a w k q n) :
    ∃ es, (Run.history allowance a w none).result = .ok (es, .rejected) := by
  obtain ⟨es, last, hresult, -⟩ := h
  exact ⟨_, hresult⟩

/-- A path that ends in a rejection is the run of the engine. -/
theorem Stage.EndsIn.rejectsAt {a : Automaton} {q w : Text} {k n allowance : Nat} {s : Stage}
    (h : Stage.EndsIn a ⟨q, w, []⟩ k s .rejected) (ha : a.Typed) (hv : a.validate = .ok ())
    (hq : a.start? = some q) (hn : n + s.rest.length = w.length) (hroom : k + 2 ≤ allowance) :
    Run.RejectsAt allowance a w k s.state n := by
  obtain ⟨es, last, hresult, hlength, hstate, hcursor⟩ := h.history ha hv hq hroom
  exact ⟨es, last, hresult, hlength, hstate, by omega⟩

/-! ## Finite automata -/

namespace Automaton

/-- Where a finite automaton goes from the state `q` with the letter `x`, by the first transition
that reads it. -/
def follow? (a : Automaton) (q : Text) (x : CodePoint) : Option Text :=
  (Choice.applicableFa a.transitions q (some [x])).head?.map Transition.target

/-- Where a finite automaton goes from the state `q` with the letters of a word. -/
def reach? (a : Automaton) (q w : Text) : Option Text :=
  w.foldlM a.follow? q

variable {a : Automaton} {q w : Text} {x : CodePoint}

/-- A word is read from its first symbol. -/
theorem reach?_cons : a.reach? q (x :: w) = (a.follow? q x).bind fun p => a.reach? p w :=
  rfl

/-- One more symbol leads one state further. -/
theorem reach?_concat : a.reach? q (w ++ [x]) = (a.reach? q w).bind fun p => a.follow? p x := by
  rw [reach?, List.foldlM_append]
  simp [reach?]

/-- The state that a word leads to decides. -/
theorem exists_final_iff {p : Text} (h : a.reach? p w = some q) :
    (∃ f, a.reach? p w = some f ∧ a.isFinal f = true) ↔ a.isFinal q = true := by
  simp [h]

/-- A letter that leads back to a state does not lead away from it. -/
theorem reach?_of_loop {alphabet : Text} (h : ∀ x ∈ alphabet, a.follow? q x = some q)
    (hw : w ⊆ alphabet) : a.reach? q w = some q := by
  induction w with
  | nil => rfl
  | cons x w ih =>
    obtain ⟨hx, hw⟩ := List.cons_subset.1 hw
    rw [reach?_cons, h x hx]
    exact ih hw

/-- No state is reached with a letter that no state can read. -/
theorem reach?_eq_none (hx : ∀ p, a.follow? p x = none) (hmem : x ∈ w) : a.reach? q w = none := by
  obtain ⟨u, v, rfl⟩ := List.append_of_mem hmem
  rw [reach?, List.foldlM_append]
  cases hu : u.foldlM a.follow? q with
  | none => rfl
  | some p =>
    show a.reach? p (x :: v) = none
    rw [reach?_cons, hx]
    rfl

/-- A symbol that no transition reads leads nowhere. -/
theorem follow?_eq_none (hx : ∀ t ∈ a.transitions, t.label.input? ≠ some [x]) (p : Text) :
    a.follow? p x = none := by
  rw [follow?, Option.map_eq_none_iff, List.head?_eq_none_iff, Choice.applicableFa,
    List.filter_eq_nil_iff]
  intro t ht hreads
  have hlabel := (Bool.and_eq_true_iff.1 hreads).2
  cases hl : t.label with
  | fa symbol =>
    rw [hl, beq_iff_eq] at hlabel
    exact hx t ht (by rw [hl]; exact hlabel)
  | pda input pop push => rw [hl] at hlabel; cases hlabel
  | tm read write direction => rw [hl] at hlabel; cases hlabel

/-- A transition that reads a letter joins the stages before and after it. -/
theorem joins_of_mem_applicableFa {ts : List Transition} {t : Transition}
    (h : t ∈ Choice.applicableFa ts q (some [x])) (w : Text) :
    t.Joins ⟨q, x :: w, []⟩ ⟨t.target, w, []⟩ := by
  obtain ⟨hsource, hlabel⟩ := Bool.and_eq_true_iff.1 (List.mem_filter.1 h).2
  have hl : t.label = .fa [x] := by
    cases hl : t.label with
    | fa symbol =>
      rw [hl, beq_iff_eq, Option.some_inj] at hlabel
      rw [hlabel]
    | pda input pop push => rw [hl] at hlabel; cases hlabel
    | tm read write direction => rw [hl] at hlabel; cases hlabel
  refine ⟨(beq_iff_eq.1 hsource).symm, rfl, fun symbol hsymbol => ?_, ?_, [], ?_, ?_⟩
  · rw [hl] at hsymbol
    obtain rfl := Option.some.inj hsymbol
    rfl
  all_goals
    rw [hl]
    rfl

/-- The stages of a finite automaton go along the states that it reaches. -/
theorem endsIn_of_reach (ha : a.Typed) (hf : a.formalism = .fa) (q w : Text) :
    (∀ f, a.reach? q w = some f → Stage.EndsIn a ⟨q, w, []⟩ w.length ⟨f, [], []⟩
      (if a.isFinal f then .accepted else .rejected)) ∧
    (a.reach? q w = none → ∃ k ≤ w.length, ∃ s, Stage.EndsIn a ⟨q, w, []⟩ k s .rejected) := by
  induction w generalizing q with
  | nil =>
    constructor
    · intro f hreach
      obtain rfl := Option.some.inj hreach
      exact Stage.endsIn_of_rest_nil (.inl hf) rfl
    · intro hreach
      cases hreach
  | cons x w ih =>
    have htaken : Stage.taken? a ⟨q, x :: w, []⟩ =
        (Choice.applicableFa a.transitions q (some [x])).head? := by
      rw [Stage.taken?, hf]
      rfl
    rw [reach?_cons, follow?, ← htaken]
    cases ht : Stage.taken? a ⟨q, x :: w, []⟩ with
    | none =>
      have hblocked := Stage.endsIn_of_taken?_eq_none ha (.inl hf) rfl ht
      refine ⟨fun f hreach => ?_, fun _ => ⟨0, Nat.zero_le _, _, hblocked⟩⟩
      cases hreach
    | some t =>
      have hjoins := joins_of_mem_applicableFa (List.mem_of_head? (htaken ▸ ht)) w
      obtain ⟨hreached, hlost⟩ := ih t.target
      refine ⟨fun f hreach => ?_, fun hreach => ?_⟩
      · exact (hreached f hreach).take ha (.inl hf) ht hjoins
      · obtain ⟨k, hk, s, hs⟩ := hlost hreach
        exact ⟨k + 1, Nat.succ_le_succ hk, s, hs.take ha (.inl hf) ht hjoins⟩

end Automaton

/-- A finite automaton accepts the words that lead to a final state. -/
theorem Run.decides_of_reach {a : Automaton} {q w : Text} {allowance : Nat} (ha : a.Typed)
    (hv : a.validate = .ok ()) (hf : a.formalism = .fa) (hq : a.start? = some q)
    (hroom : w.length + 2 ≤ allowance) :
    Run.Decides allowance a w (∃ f, a.reach? q w = some f ∧ a.isFinal f = true) := by
  obtain ⟨hreached, hlost⟩ := Automaton.endsIn_of_reach ha hf q w
  constructor
  · rintro ⟨f, hreach, hfinal⟩
    have hends := hreached f hreach
    rw [hfinal] at hends
    obtain ⟨es, last, hresult, -⟩ := hends.history ha hv hq hroom
    exact ⟨_, hresult⟩
  · intro hnot
    cases hreach : a.reach? q w with
    | none =>
      obtain ⟨k, hk, s, hends⟩ := hlost hreach
      have henough : k + 2 ≤ allowance := by omega
      obtain ⟨es, last, hresult, -⟩ := hends.history ha hv hq henough
      exact ⟨_, hresult⟩
    | some f =>
      have hends := hreached f hreach
      rw [if_neg fun hfinal => hnot ⟨f, hreach, hfinal⟩] at hends
      obtain ⟨es, last, hresult, -⟩ := hends.history ha hv hq hroom
      exact ⟨_, hresult⟩

/-! ## The letters of an automaton -/

/-- The transitions of the automaton read no letters but those of the alphabet. -/
def Automaton.ReadsOnly (a : Automaton) (alphabet : Text) : Prop :=
  ∀ t ∈ a.transitions, t.label.input?.toList ⊆ Text.singletons alphabet

/-- Whether an automaton reads only the letters of an alphabet can be decided. -/
instance (a : Automaton) (alphabet : Text) : Decidable (a.ReadsOnly alphabet) :=
  inferInstanceAs (Decidable (∀ t ∈ a.transitions, _))

/-- A symbol outside the alphabet is read by no transition. -/
theorem Automaton.ReadsOnly.input?_ne {a : Automaton} {alphabet : Text} {x : CodePoint}
    (h : a.ReadsOnly alphabet) (hx : x ∉ alphabet) :
    ∀ t ∈ a.transitions, t.label.input? ≠ some [x] := by
  intro t ht hread
  have hmem : [x] ∈ Text.singletons alphabet :=
    h t ht (by rw [hread]; exact List.mem_singleton_self _)
  obtain ⟨y, hy, heq⟩ := List.mem_map.1 hmem
  exact hx (List.singleton_inj.1 heq ▸ hy)

/-- A word with other letters than those of the alphabet has a first one. -/
theorem exists_foreign {alphabet w : Text} (h : ¬w ⊆ alphabet) :
    ∃ u x v, w = u ++ x :: v ∧ u ⊆ alphabet ∧ x ∉ alphabet := by
  induction w with
  | nil => exact absurd (List.nil_subset _) h
  | cons y w ih =>
    by_cases hy : y ∈ alphabet
    · obtain ⟨u, x, v, rfl, hu, hx⟩ := ih fun hw => h (List.cons_subset.2 ⟨hy, hw⟩)
      exact ⟨y :: u, x, v, rfl, List.cons_subset.2 ⟨hy, hu⟩, hx⟩
    · exact ⟨[], y, w, rfl, List.nil_subset _, hy⟩

/-- A finite automaton rejects the words with other letters than its own. -/
theorem Run.decides_of_readsOnly {a : Automaton} {alphabet q w : Text} {allowance : Nat} {p : Prop}
    (ha : a.Typed) (hv : a.validate = .ok ()) (hf : a.formalism = .fa) (hq : a.start? = some q)
    (hroom : w.length + 2 ≤ allowance) (hreads : a.ReadsOnly alphabet)
    (hp : w ⊆ alphabet → ((∃ f, a.reach? q w = some f ∧ a.isFinal f = true) ↔ p)) :
    Run.Decides allowance a w (w ⊆ alphabet ∧ p) := by
  refine (Run.decides_of_reach ha hv hf hq hroom).congr ?_
  by_cases hw : w ⊆ alphabet
  · exact (hp hw).trans (and_iff_right hw).symm
  · obtain ⟨u, x, v, rfl, -, hx⟩ := exists_foreign hw
    have hlost : a.reach? q (u ++ x :: v) = none :=
      Automaton.reach?_eq_none (Automaton.follow?_eq_none (hreads.input?_ne hx)) (by simp)
    exact iff_of_false (fun ⟨f, hreach, _⟩ => nomatch hlost.symm.trans hreach) fun h => hw h.1

theorem Choice.exists_of_matchesPda {q i : Text} {top : Option Text} {t : Transition}
    (h : Choice.matchesPda q top (some i) t = true) :
    t.source = q ∧ ∃ pop push, t.label = .pda i pop push := by
  obtain ⟨hsource, hlabel⟩ := Bool.and_eq_true_iff.1 h
  refine ⟨beq_iff_eq.1 hsource, ?_⟩
  cases hl : t.label with
  | fa symbol => rw [hl] at hlabel; cases hlabel
  | pda input pop push =>
    rw [hl] at hlabel
    obtain rfl := Option.some.inj (beq_iff_eq.1 (Bool.and_eq_true_iff.1 hlabel).2)
    exact ⟨pop, push, rfl⟩
  | tm read write direction => rw [hl] at hlabel; cases hlabel

/-- Before a letter that no transition reads, only a transition that reads nothing can be taken. -/
theorem Stage.taken?_of_unread {a : Automaton} {q r : Text} {x : CodePoint} {stack : List Text}
    (hf : a.formalism = .pda) (hx : ∀ t ∈ a.transitions, t.label.input? ≠ some [x]) :
    Stage.taken? a ⟨q, x :: r, stack⟩ =
      (a.transitions.filter fun t => t.source == q && t.label.input? == none).find?
        (Choice.silentPda q stack.head?) := by
  have hconsumes : a.transitions.filter (Choice.consumesPda q (some [x]) stack.head?) = [] := by
    refine List.filter_eq_nil_iff.2 fun t ht hreads => hx t ht ?_
    obtain ⟨hne, hmatch⟩ := Bool.and_eq_true_iff.1 hreads
    obtain ⟨-, pop, push, hl⟩ := Choice.exists_of_matchesPda hmatch
    rw [hl, Label.input?, if_neg]
    rintro hepsilon
    simp [hepsilon] at hne
  have hsilent : ∀ t : Transition, Choice.silentPda q stack.head? t = true →
      (t.source == q && t.label.input? == none) = true := by
    intro t ht
    obtain ⟨hsource, pop, push, hl⟩ := Choice.exists_of_matchesPda ht
    simp [hsource, hl, Label.input?]
  rw [Stage.taken?, hf]
  show (Choice.applicablePda a.transitions q (some [x]) stack.head?).head? = _
  rw [Choice.applicablePda, hconsumes, List.nil_append, ← List.head?_filter, List.filter_filter]
  refine congrArg List.head? (List.filter_congr fun t _ => ?_)
  rw [Bool.eq_iff_iff, Bool.and_eq_true]
  exact ⟨fun h => ⟨h, hsilent t h⟩, And.left⟩

namespace CatalogLanguages

theorem mem_ab {x : CodePoint} : x ∈ ("ab" : Text) ↔ x = 'a' ∨ x = 'b' := by
  show x ∈ [CodePoint.char 'a', CodePoint.char 'b'] ↔ _
  simp

/-! ### Finite automata of the catalog -/

theorem reach_endsWithA {w : Text} (hw : w ⊆ "ab") : Catalog.endsWithA.automaton.reach? "q0" w =
    some (if w.getLast? = some 'a' then ("q1" : Text) else "q0") := by
  induction w using List.reverseRecOn with
  | nil => rfl
  | append_singleton w x ih =>
    obtain ⟨hw, hx⟩ := List.append_subset.1 hw
    rw [Automaton.reach?_concat, ih hw, List.getLast?_concat]
    rcases mem_ab.1 (hx (List.mem_singleton_self x)) with rfl | rfl <;> split <;> rfl

theorem reach_evenA {w : Text} (hw : w ⊆ "ab") : Catalog.evenA.automaton.reach? "even" w =
    some (if Even (w.count ('a' : CodePoint)) then ("even" : Text) else "odd") := by
  induction w using List.reverseRecOn with
  | nil => rfl
  | append_singleton w x ih =>
    obtain ⟨hw, hx⟩ := List.append_subset.1 hw
    rw [Automaton.reach?_concat, ih hw, List.count_append]
    rcases mem_ab.1 (hx (List.mem_singleton_self x)) with rfl | rfl
    · rw [List.count_singleton_self]
      by_cases heven : Even (w.count ('a' : CodePoint))
      · rw [if_pos heven, if_neg (Nat.even_add_one.not_left.2 heven)]
        rfl
      · rw [if_neg heven, if_pos (Nat.even_add_one.2 heven)]
        rfl
    · rw [show [('b' : CodePoint)].count ('a' : CodePoint) = 0 from rfl, Nat.add_zero]
      split <;> rfl

/-- The first two letters decide, since no letter leaves either state that they lead to. -/
theorem reach_startsWithAB {w : Text} (hw : w ⊆ "ab") :
    (∃ f, Catalog.startsWithAB.automaton.reach? "q0" w = some f ∧
      Catalog.startsWithAB.automaton.isFinal f = true) ↔ ("ab" : Text) <+: w := by
  have hstay : ∀ q ∈ [("q2" : Text), "q3"], ∀ r : Text, r ⊆ "ab" →
      Catalog.startsWithAB.automaton.reach? q r = some q := by
    intro q hq r hr
    have hloop : ∀ q ∈ [("q2" : Text), "q3"], ∀ x ∈ ("ab" : Text),
        Catalog.startsWithAB.automaton.follow? q x = some q := by decide
    exact Automaton.reach?_of_loop (hloop q hq) hr
  have hdecides {q : Text} (hq : Catalog.startsWithAB.automaton.reach? "q0" w = some q) :=
    Automaton.exists_final_iff hq
  rcases w with _ | ⟨x, r⟩
  · exact (hdecides rfl).trans (by decide)
  obtain ⟨hx, hr⟩ := List.cons_subset.1 hw
  rcases mem_ab.1 hx with rfl | rfl
  case inr =>
    exact (hdecides (hstay "q3" (by decide) r hr)).trans
      (iff_of_false (by decide) fun ⟨_, h⟩ => by cases h)
  rcases r with _ | ⟨y, r⟩
  · exact (hdecides rfl).trans (by decide)
  obtain ⟨hy, hr'⟩ := List.cons_subset.1 hr
  rcases mem_ab.1 hy with rfl | rfl
  · exact (hdecides (hstay "q3" (by decide) r hr')).trans
      (iff_of_false (by decide) fun ⟨_, h⟩ => by cases h)
  · exact (hdecides (hstay "q2" (by decide) r hr')).trans (iff_of_true rfl ⟨r, rfl⟩)

/-! ### The pushdown automaton that does not fold -/

/-- A letter of the alphabet is pushed, although it need not be read. -/
theorem ends_push {w : Text} {x : CodePoint} {stack : List Text} {k : Nat} {s : Stage} {v : Status}
    (hx : x ∈ ("ab" : Text))
    (h : Stage.EndsIn Catalog.palindrome.automaton ⟨"q0", w, [x] :: stack⟩ k s v) :
    Stage.EndsIn Catalog.palindrome.automaton ⟨"q0", x :: w, stack⟩ (k + 1) s v := by
  have hjoins : Transition.Joins ⟨"q0", "q0", .pda [x] Label.epsilon [x]⟩ ⟨"q0", x :: w, stack⟩
      ⟨"q0", w, [x] :: stack⟩ := by
    rcases mem_ab.1 hx with rfl | rfl
    all_goals
      refine ⟨rfl, rfl, fun symbol hsymbol => ?_, rfl, stack, rfl, rfl⟩
      obtain rfl := Option.some.inj hsymbol
      rfl
  refine h.take (t := ⟨"q0", "q0", .pda [x] Label.epsilon [x]⟩) (by decide) (.inr rfl) ?_ hjoins
  rcases mem_ab.1 hx with rfl | rfl <;> rfl

theorem ends_pushes {u w : Text} (stack : List Text) {k : Nat} {s : Stage} {v : Status}
    (hu : u ⊆ "ab")
    (h : Stage.EndsIn Catalog.palindrome.automaton
      ⟨"q0", w, (Text.singletons u).reverse ++ stack⟩ k s v) :
    Stage.EndsIn Catalog.palindrome.automaton ⟨"q0", u ++ w, stack⟩ (k + u.length) s v := by
  induction u generalizing stack with
  | nil => exact h
  | cons x u ih =>
    obtain ⟨hx, hu⟩ := List.cons_subset.1 hu
    refine ends_push hx (ih _ hu ?_)
    simpa [Text.singletons] using h

/-- Along its own letters the automaton stays in its first state, and so it stops there. -/
theorem ends_unfolded {w : Text} (hw : w ⊆ "ab") :
    Stage.EndsIn Catalog.palindrome.automaton ⟨"q0", w, []⟩ w.length
      ⟨"q0", [], (Text.singletons w).reverse⟩ .rejected := by
  have hstop : Stage.EndsIn Catalog.palindrome.automaton ⟨"q0", [], (Text.singletons w).reverse⟩ 0
      ⟨"q0", [], (Text.singletons w).reverse⟩ .rejected :=
    Stage.endsIn_of_rest_nil (.inr rfl) rfl
  have hends := ends_pushes (w := []) [] hw (by rwa [List.append_nil])
  rwa [List.append_nil, Nat.zero_add] at hends

/-- Another letter is not read : it leads to the final state, and the run stops before it. -/
theorem ends_foreign {u v : Text} {x : CodePoint} (hu : u ⊆ "ab") (hx : x ∉ ("ab" : Text)) :
    Stage.EndsIn Catalog.palindrome.automaton ⟨"q0", u ++ x :: v, []⟩ (u.length + 2)
      ⟨"q2", x :: v, (Text.singletons u).reverse⟩ .rejected := by
  have ha : Catalog.palindrome.automaton.Typed := by decide
  have hreads : Catalog.palindrome.automaton.ReadsOnly "ab" := by decide
  have hstop : Stage.EndsIn Catalog.palindrome.automaton
      ⟨"q2", x :: v, (Text.singletons u).reverse⟩ 0 _ .rejected :=
    Stage.endsIn_of_taken?_eq_none ha (.inr rfl) rfl
      (Stage.taken?_of_unread rfl (hreads.input?_ne hx))
  have hleave : ∀ p q, (p = "q0" ∧ q = "q1" ∨ p = "q1" ∧ q = "q2") → ∀ {k s},
      Stage.EndsIn Catalog.palindrome.automaton ⟨q, x :: v, (Text.singletons u).reverse⟩ k s
        .rejected →
      Stage.EndsIn Catalog.palindrome.automaton ⟨p, x :: v, (Text.singletons u).reverse⟩ (k + 1) s
        .rejected := by
    intro p q hpq k s h
    refine h.take (t := ⟨p, q, .pda "ε" "ε" "ε"⟩) ha (.inr rfl) ?_
      ⟨rfl, rfl, nofun, rfl, _, rfl, rfl⟩
    rw [Stage.taken?_of_unread rfl (hreads.input?_ne hx)]
    rcases hpq with ⟨rfl, rfl⟩ | ⟨rfl, rfl⟩ <;> rfl
  have hends := hleave "q0" "q1" (.inl ⟨rfl, rfl⟩) (hleave "q1" "q2" (.inr ⟨rfl, rfl⟩) hstop)
  have hpushes := ends_pushes [] hu (by rwa [List.append_nil])
  rwa [Nat.add_comm] at hpushes

end CatalogLanguages

open CatalogLanguages in
/-- Of the words over the letters `a` and `b` the first automaton accepts those that end in `a`, the
second one those with an even number of `a`, and the third one those that begin with `ab`. They
reject all other words, and the last automaton rejects every word. It stops at the end of a word
over its two letters in its first state, having read a letter with each transition; and in any other
word, before the first letter that it does not know. -/
theorem history_catalog_languages (w : Text) {allowance : Nat} (hroom : w.length + 3 ≤ allowance) :
    Run.Decides allowance Catalog.endsWithA.automaton w (w ⊆ "ab" ∧ w.getLast? = some 'a') ∧
    Run.Decides allowance Catalog.evenA.automaton w (w ⊆ "ab" ∧ Even (w.count ('a' : CodePoint))) ∧
    Run.Decides allowance Catalog.startsWithAB.automaton w (w ⊆ "ab" ∧ ("ab" : Text) <+: w) ∧
    Run.Decides allowance Catalog.palindrome.automaton w False ∧
    (w ⊆ "ab" →
      Run.RejectsAt allowance Catalog.palindrome.automaton w w.length "q0" w.length) ∧
    ∀ (u : Text) (x : CodePoint) (v : Text), w = u ++ x :: v → u ⊆ "ab" → x ∉ ("ab" : Text) →
      Run.RejectsAt allowance Catalog.palindrome.automaton w (u.length + 2) "q2" u.length := by
  have hroom' : w.length + 2 ≤ allowance := by omega
  have ha : Catalog.palindrome.automaton.Typed := by decide
  have hunfolded (hw : w ⊆ "ab") :
      Run.RejectsAt allowance Catalog.palindrome.automaton w w.length "q0" w.length :=
    (ends_unfolded hw).rejectsAt ha rfl rfl rfl hroom'
  have hforeign (u : Text) (x : CodePoint) (v : Text) (hw : w = u ++ x :: v) (hu : u ⊆ "ab")
      (hx : x ∉ ("ab" : Text)) :
      Run.RejectsAt allowance Catalog.palindrome.automaton w (u.length + 2) "q2" u.length := by
    have hlength : w.length = u.length + (v.length + 1) := by simp [hw]
    have hends := ends_foreign (v := v) hu hx
    rw [← hw] at hends
    exact hends.rejectsAt ha rfl rfl hlength.symm (by omega)
  refine ⟨?_, ?_, ?_, ⟨nofun, fun _ => ?_⟩, hunfolded, hforeign⟩
  · refine Run.decides_of_readsOnly (by decide) rfl rfl rfl hroom' (by decide) fun hw => ?_
    rw [Automaton.exists_final_iff (reach_endsWithA hw)]
    split
    case isTrue hlast => exact iff_of_true rfl hlast
    case isFalse hlast => exact iff_of_false (by decide) hlast
  · refine Run.decides_of_readsOnly (by decide) rfl rfl rfl hroom' (by decide) fun hw => ?_
    rw [Automaton.exists_final_iff (reach_evenA hw)]
    split
    case isTrue heven => exact iff_of_true rfl heven
    case isFalse hodd => exact iff_of_false (by decide) hodd
  · exact Run.decides_of_readsOnly (by decide) rfl rfl rfl hroom' (by decide) reach_startsWithAB
  · by_cases hw : w ⊆ "ab"
    · exact (hunfolded hw).rejects
    · obtain ⟨u, x, v, hsplit, hu, hx⟩ := exists_foreign hw
      exact (hforeign u x v hsplit hu hx).rejects

/-- A palindrome of even length that begins with `ab` and ends in `a`. -/
theorem history_catalog_languages_abba : ("abba" : Text).length + 3 ≤ 7 ∧
    (∃ es, (Run.history 7 Catalog.endsWithA.automaton "abba" none).result = .ok (es, .accepted)) ∧
    (∃ es, (Run.history 7 Catalog.evenA.automaton "abba" none).result = .ok (es, .accepted)) ∧
    (∃ es, (Run.history 7 Catalog.startsWithAB.automaton "abba" none).result =
      .ok (es, .accepted)) ∧
    Run.RejectsAt 7 Catalog.palindrome.automaton "abba" 4 "q0" 4 := by
  have hroom : ("abba" : Text).length + 3 ≤ 7 := by decide
  obtain ⟨hends, heven, hstarts, -, hunfolded, -⟩ := history_catalog_languages "abba" hroom
  exact ⟨hroom, hends.accepts (by decide), heven.accepts (by decide), hstarts.accepts (by decide),
    hunfolded (by decide)⟩

end AutomatonLab
