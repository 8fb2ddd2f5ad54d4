import AutomatonLab.Proofs.Stages

/-!
# Letters counted on a stack

Of an automaton without competing transitions a run can be followed by stages alone : where a
transition joins two stages, the run goes from one to the other (`Transition.Joins.ends`); where
none does, it rejects (`Stage.ends_of_blocked`); and where nothing is left to read, the state
decides (`Stage.ends_of_rest_nil`). So where a run ends is proved along the rest of the input.

The pushdown automaton `Catalog.anbn` puts a symbol on its stack for each `a` and takes one off for
each `b` that follows. It rejects a `b` for which no symbol is left. But it looks only at its state
when the input is used up, and not at the stack; so it accepts a word of one `b` or more after at
least as many `a`, and leaves a symbol for each `a` that is too many (`history_anbn`). The words
with as many letters of either kind are those after which the stack is empty, and not the only ones
that are accepted (`history_anbn_surplus`).
-/

namespace AutomatonLab

/-! ## Runs by stages -/

/-- A run of `a` that stands at the stage `s` halts at the stage `s'` with the status `v`, and takes
no more transitions than there are symbols left. -/
def Stage.Ends (a : Automaton) (s s' : Stage) (v : Status) : Prop :=
  ∀ c : Configuration, 0 ≤ c.cursor → c.At s →
    ∃ k ≤ s.rest.length, ∃ d, Finishes a c k d v ∧ d.At s'

section Stages

variable {a : Automaton} {s s' s'' : Stage} {t : Transition} {v : Status}

/-- At the end of the word the state decides. -/
theorem Stage.ends_of_rest_nil (hf : a.formalism = .fa ∨ a.formalism = .pda) (hs : s.rest = []) :
    s.Ends a s (if a.isFinal s.state then .accepted else .rejected) :=
  fun c hcursor hc => ⟨0, Nat.zero_le _, endsIn_of_rest_nil hf hs c hcursor hc⟩

/-- A word that cannot be read on is rejected. -/
theorem Stage.ends_of_blocked (ha : a.Typed) (hf : a.formalism = .fa ∨ a.formalism = .pda)
    (hs : s.rest ≠ []) (hblocked : ∀ t ∈ a.transitions, ∀ s', ¬t.Joins s s') :
    s.Ends a s .rejected := by
  intro c hcursor hc
  obtain ⟨t, c', v, hstep⟩ := exists_step ha hcursor
  cases t with
  | some u =>
    obtain ⟨s', hjoins, -⟩ := hstep.move hf hcursor hc
    exact absurd hjoins (hblocked u hstep.joins.1 s')
  | none =>
    have hstep' : Step a c none c .rejected := by
      cases hstep with
      | endOfInput _ hn =>
        rw [hc.next?_eq, Option.map_eq_none_iff, List.head?_eq_none_iff] at hn
        exact absurd hn hs
      | blocked hf' hn hu => exact .blocked hf' hn hu
      | final htm => exact absurd htm (Automaton.ne_tm hf)
      | stuck htm => exact absurd htm (Automaton.ne_tm hf)
    exact ⟨0, Nat.zero_le _, c, .halt hstep', hc⟩

/-- What can be read on ends as the rest does. -/
theorem Transition.Joins.ends (h : t.Joins s s') (ha : a.Typed)
    (hdet : a.DeterministicFa ∨ a.DeterministicPda) (ht : t ∈ a.transitions)
    (hs' : s'.Ends a s'' v) : s.Ends a s'' v := by
  intro c hcursor hc
  obtain ⟨c', hstep, hc', hrest⟩ := h.step ha hdet hcursor ht hc
  obtain ⟨k, hk, d, hd, hd'⟩ := hs' c' (Int.le_trans hcursor hstep.cursor_le) hc'
  exact ⟨k + 1, by omega, d, .step hstep hd, hd'⟩

/-- What the end of the start stage says about a whole run. -/
theorem Stage.Ends.history {q w : Text} {allowance : Nat} (h : Stage.Ends a ⟨q, w, []⟩ s v)
    (ha : a.Typed) (hv : a.validate = .ok ()) (hq : a.start? = some q)
    (hroom : w.length + 2 ≤ allowance) :
    ∃ es last, (Run.history allowance a w none).result = .ok (es ++ [last], v) ∧
      last.snapshot.state = some s.state ∧ last.snapshot.stack.reverse = s.stack := by
  obtain ⟨k, hk, d, hd, hs⟩ := h (.start a w) (Int.le_refl 0) ⟨hq, rfl, rfl⟩
  have hk' : k ≤ w.length := hk
  have henough : k + 2 ≤ allowance := by omega
  obtain ⟨es, last, hresult, -, hstate, hstack, -⟩ := hs.history ha hv hd henough
  exact ⟨es, last, hresult, hstate, hstack⟩

end Stages

/-! ## The automaton that counts -/

/-- The character `x`, `n` times. -/
def Text.repeated (x : Char) (n : Nat) : Text :=
  List.replicate n (.char x)

@[simp] theorem Text.length_repeated (x : Char) (n : Nat) : (repeated x n).length = n :=
  List.length_replicate

/-- The automaton stands in the state `q` with `k` symbols on its stack. -/
def Stage.counted (q rest : Text) (k : Nat) : Stage :=
  ⟨q, rest, List.replicate k "X"⟩

namespace CountedLetters

open AutomatonLab.Stage

variable {t : Transition} {p q rest : Text} {k : Nat} {x : CodePoint} {s' : Stage} {v : Status}

/-- A transition that reads a letter, and takes what it pops off the counted symbols. -/
theorem joins_counted {j : Nat} (hreads : t.label.input? = some [x])
    (hstack : ∃ below, List.replicate k ("X" : Text) = t.label.pop?.toList ++ below ∧
      List.replicate j ("X" : Text) = t.label.push?.toList ++ below) :
    t.Joins (counted t.source (x :: rest) k) (counted t.target rest j) where
  source := rfl
  target := rfl
  single symbol hsymbol := by
    rw [hreads] at hsymbol
    obtain rfl := Option.some.inj hsymbol
    rfl
  reads := by
    rw [hreads]
    rfl
  stack := hstack

/-- An `a` is only read before the first `b`, and a `b` only for a symbol on the stack. -/
theorem eq_of_joins_counted (ht : t ∈ Catalog.anbn.automaton.transitions)
    (h : t.Joins (counted q (x :: rest) k) s') :
    x = 'a' ∧ (q = "q0" ∨ q = "q1") ∨ x = 'b' ∧ (q = "q1" ∨ q = "q2") ∧ 0 < k := by
  have hsource : q = t.source := h.source
  have hreads := h.reads
  obtain ⟨below, hbelow, -⟩ := h.stack
  have hpops : t.label.pop? = some "X" → 0 < k := by
    intro hpop
    rw [hpop] at hbelow
    exact Nat.pos_of_ne_zero fun hk => by simp [counted, hk] at hbelow
  simp only [Catalog.anbn, List.mem_cons, List.not_mem_nil, or_false] at ht
  rcases ht with rfl | rfl | rfl | rfl
  · exact Or.inl ⟨(List.cons.inj hreads).1, Or.inl hsource⟩
  · exact Or.inl ⟨(List.cons.inj hreads).1, Or.inr hsource⟩
  · exact Or.inr ⟨(List.cons.inj hreads).1, Or.inl hsource, hpops rfl⟩
  · exact Or.inr ⟨(List.cons.inj hreads).1, Or.inr hsource, hpops rfl⟩

theorem typed_anbn : Catalog.anbn.automaton.Typed := by
  decide

theorem deterministic_anbn : Catalog.anbn.automaton.DeterministicPda :=
  ⟨rfl, by decide, by decide⟩

/-- One `a` is one more `X`. -/
theorem ends_push (ht : ⟨q, p, .pda "a" "ε" "X"⟩ ∈ Catalog.anbn.automaton.transitions)
    (h : (counted p rest (k + 1)).Ends Catalog.anbn.automaton s' v) :
    (counted q ('a' :: rest) k).Ends Catalog.anbn.automaton s' v :=
  (joins_counted rfl ⟨List.replicate k "X", rfl, rfl⟩).ends typed_anbn
    (Or.inr deterministic_anbn) ht h

/-- One `b` is one `X` less. -/
theorem ends_pop (ht : ⟨q, p, .pda "b" "X" "ε"⟩ ∈ Catalog.anbn.automaton.transitions)
    (h : (counted p rest k).Ends Catalog.anbn.automaton s' v) :
    (counted q ('b' :: rest) (k + 1)).Ends Catalog.anbn.automaton s' v :=
  (joins_counted rfl ⟨List.replicate k "X", rfl, rfl⟩).ends typed_anbn
    (Or.inr deterministic_anbn) ht h

/-- The automaton rejects a letter that it cannot read. -/
theorem ends_of_unreadable
    (h : ¬(x = 'a' ∧ (q = "q0" ∨ q = "q1") ∨ x = 'b' ∧ (q = "q1" ∨ q = "q2") ∧ 0 < k)) :
    ∃ s', (counted q (x :: rest) k).Ends Catalog.anbn.automaton s' .rejected :=
  ⟨_, ends_of_blocked typed_anbn (Or.inr rfl) (List.cons_ne_nil x rest)
    fun _ ht _ hjoins => h (eq_of_joins_counted ht hjoins)⟩

/-! ### Words that are accepted -/

/-- After the first `b`, as many more are accepted as there are `X`. -/
theorem accepts_tail (j m : Nat) :
    (counted "q2" (Text.repeated 'b' j) (j + m)).Ends Catalog.anbn.automaton
      (counted "q2" [] m) .accepted := by
  induction j with
  | zero =>
    rw [Nat.zero_add]
    exact ends_of_rest_nil (Or.inr rfl) rfl
  | succ j ih =>
    rw [Nat.succ_add]
    exact ends_pop (by decide) ih

/-- The letters of the second half may be fewer than the `X` of the first one. -/
theorem accepts_counted (i j m k : Nat) (h : i + k = j + 1 + m) :
    (counted "q1" (Text.repeated 'a' i ++ Text.repeated 'b' (j + 1)) k).Ends
      Catalog.anbn.automaton (counted "q2" [] m) .accepted := by
  induction i generalizing k with
  | zero =>
    obtain rfl : k = j + m + 1 := by omega
    exact ends_pop (by decide) (accepts_tail j m)
  | succ i ih =>
    exact ends_push (by decide) (ih (k + 1) (by omega))

/-! ### Words that are rejected -/

/-- After a `b` only such letters may follow, at most as many as there are symbols. -/
theorem rejects_tail (r : Text) (k : Nat) (h : ∀ j ≤ k, r ≠ Text.repeated 'b' j) :
    ∃ s', (counted "q2" r k).Ends Catalog.anbn.automaton s' .rejected := by
  induction r generalizing k with
  | nil => exact absurd rfl (h 0 (Nat.zero_le k))
  | cons x r ih =>
    by_cases hread : x = 'b' ∧ 0 < k
    · obtain ⟨rfl, hk⟩ := hread
      obtain ⟨k, rfl⟩ : ∃ n, k = n + 1 := ⟨k - 1, by omega⟩
      obtain ⟨s', hs'⟩ := ih k fun j hj hr => h (j + 1) (by omega) (by rw [hr]; rfl)
      exact ⟨s', ends_pop (by decide) hs'⟩
    · refine ends_of_unreadable ?_
      rintro (⟨-, hq | hq⟩ | ⟨hx, -, hk⟩)
      · exact absurd hq (by decide)
      · exact absurd hq (by decide)
      · exact hread ⟨hx, hk⟩

/-- Before the first `b` the number of symbols grows with each `a`. -/
theorem rejects_counted (r : Text) (k : Nat)
    (h : ∀ i j, 1 ≤ j → j ≤ i + k → r ≠ Text.repeated 'a' i ++ Text.repeated 'b' j) :
    ∃ s', (counted "q1" r k).Ends Catalog.anbn.automaton s' .rejected := by
  induction r generalizing k with
  | nil => exact ⟨_, ends_of_rest_nil (Or.inr rfl) rfl⟩
  | cons x r ih =>
    by_cases ha : x = 'a'
    · subst ha
      obtain ⟨s', hs'⟩ := ih (k + 1) fun i j hj hle hr =>
        h (i + 1) j hj (by omega) (by rw [hr]; rfl)
      exact ⟨s', ends_push (by decide) hs'⟩
    · by_cases hread : x = 'b' ∧ 0 < k
      · obtain ⟨rfl, hk⟩ := hread
        obtain ⟨k, rfl⟩ : ∃ n, k = n + 1 := ⟨k - 1, by omega⟩
        obtain ⟨s', hs'⟩ := rejects_tail r k fun j hj hr =>
          h 0 (j + 1) (by omega) (by omega) (by rw [hr]; rfl)
        exact ⟨s', ends_pop (by decide) hs'⟩
      · refine ends_of_unreadable ?_
        rintro (⟨hx, -⟩ | ⟨hx, -, hk⟩)
        · exact ha hx
        · exact hread ⟨hx, hk⟩

/-! ### Whole runs -/

/-- At least one `b`, and not more than there are `a` : the word is accepted. -/
theorem accepts_start (n m : Nat) (hm : 1 ≤ m) (hmn : m ≤ n) :
    (counted "q0" (Text.repeated 'a' n ++ Text.repeated 'b' m) 0).Ends Catalog.anbn.automaton
      (counted "q2" [] (n - m)) .accepted := by
  obtain ⟨i, rfl⟩ : ∃ i, n = i + 1 := ⟨n - 1, by omega⟩
  obtain ⟨j, rfl⟩ : ∃ j, m = j + 1 := ⟨m - 1, by omega⟩
  exact ends_push (by decide) (accepts_counted i j _ 1 (by omega))

/-- No other word is accepted. -/
theorem rejects_start (w : Text)
    (h : ∀ n m, 1 ≤ m → m ≤ n → w ≠ Text.repeated 'a' n ++ Text.repeated 'b' m) :
    ∃ s', (counted "q0" w 0).Ends Catalog.anbn.automaton s' .rejected := by
  cases w with
  | nil => exact ⟨_, ends_of_rest_nil (Or.inr rfl) rfl⟩
  | cons x r =>
    by_cases ha : x = 'a'
    · subst ha
      obtain ⟨s', hs'⟩ := rejects_counted r 1 fun i j hj hle hr =>
        h (i + 1) j hj hle (by rw [hr]; rfl)
      exact ⟨s', ends_push (by decide) hs'⟩
    · refine ends_of_unreadable ?_
      rintro (⟨hx, -⟩ | ⟨-, -, hk⟩)
      · exact ha hx
      · exact absurd hk (Nat.lt_irrefl 0)

end CountedLetters

open CountedLetters in
/-- The automaton accepts the words of at least one `b` after at least as many `a`, in the final
state and with a symbol on the stack for each `a` without a `b`. It rejects all others. -/
theorem history_anbn (w : Text) {allowance : Nat} (hroom : w.length + 2 ≤ allowance) :
    (∀ n m, 1 ≤ m → m ≤ n → w = Text.repeated 'a' n ++ Text.repeated 'b' m →
      ∃ es last, (Run.history allowance Catalog.anbn.automaton w none).result =
          .ok (es ++ [last], .accepted) ∧
        last.snapshot.state = some ("q2" : Text) ∧
        last.snapshot.stack = List.replicate (n - m) ("X" : Text)) ∧
    ((∀ n m, 1 ≤ m → m ≤ n → w ≠ Text.repeated 'a' n ++ Text.repeated 'b' m) →
      ∃ es, (Run.history allowance Catalog.anbn.automaton w none).result =
        .ok (es, .rejected)) := by
  constructor
  · rintro n m hm hmn rfl
    obtain ⟨es, last, hresult, hstate, hstack⟩ :=
      (accepts_start n m hm hmn).history typed_anbn rfl rfl hroom
    refine ⟨es, last, hresult, hstate, ?_⟩
    rw [← List.reverse_reverse last.snapshot.stack, hstack]
    exact List.reverse_replicate
  · intro hother
    obtain ⟨s', hs'⟩ := rejects_start w hother
    obtain ⟨es, last, hresult, -⟩ := hs'.history typed_anbn rfl rfl hroom
    exact ⟨_, hresult⟩

/-- A word with an `a` too many is accepted, and one with a `b` too many is rejected. -/
theorem history_anbn_uneven :
    ("aab" : Text).length + 2 ≤ 5 ∧ ("abb" : Text).length + 2 ≤ 5 ∧
      (∃ es last, (Run.history 5 Catalog.anbn.automaton "aab" none).result =
        .ok (es ++ [last], .accepted) ∧ last.snapshot.stack = [("X" : Text)]) ∧
      ∃ es, (Run.history 5 Catalog.anbn.automaton "abb" none).result = .ok (es, .rejected) := by
  have haab : ("aab" : Text).length + 2 ≤ 5 := by decide
  have habb : ("abb" : Text).length + 2 ≤ 5 := by decide
  obtain ⟨es, last, hresult, -, hstack⟩ :=
    (history_anbn "aab" haab).1 2 1 (by decide) (by decide) rfl
  refine ⟨haab, habb, ⟨es, last, hresult, hstack⟩,
    (history_anbn "abb" habb).2 fun n m hm hmn h => ?_⟩
  have hlength : ("abb" : Text).length = n + m := by simpa using congrArg List.length h
  have hthree : ("abb" : Text).length = 3 := rfl
  obtain ⟨rfl, rfl⟩ : n = 2 ∧ m = 1 := by omega
  exact absurd h (by decide)

/-- A word is accepted that has more letters of one kind than of the other. -/
theorem history_anbn_surplus :
    (∃ es, (Run.history 5 Catalog.anbn.automaton "aab" none).result = .ok (es, .accepted)) ∧
      ∀ n, ("aab" : Text) ≠ Text.repeated 'a' n ++ Text.repeated 'b' n := by
  refine ⟨⟨_, rfl⟩, fun n h => ?_⟩
  have hlength : ("aab" : Text).length = n + n := by simpa using congrArg List.length h
  have hthree : ("aab" : Text).length = 3 := rfl
  omega

end AutomatonLab
