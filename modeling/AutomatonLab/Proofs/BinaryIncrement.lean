import AutomatonLab.Catalog
import AutomatonLab.Proofs.Finish
import AutomatonLab.Proofs.Tape
import Mathlib.Data.List.DropRight
import Mathlib.Data.Nat.Digits.Lemmas

/-!
# Counting up on a tape

The Turing machine `Catalog.binaryIncrement` adds one to the numeral on its tape. It goes right over
the digits to the first blank cell (`BinaryIncrement.finishes_scan`), turns there, and goes left over
the ones at the end, each of which becomes a zero (`BinaryIncrement.finishes_carry`). The zero before
them becomes a one, and the machine halts. So a word with a zero becomes the numeral of its value
increased by one, with as many digits (`Text.binaryNumeral_succ`).

A tape has no cell left of the first one, and a head that would leave it stays there
(`Tape.move_left`). So where all digits are ones there is no room for the digit that the carry adds :
the machine writes it over the first zero.
-/

namespace AutomatonLab

/-! ## Binary numerals -/

namespace Text

/-- The digit zero. -/
abbrev zero : CodePoint := '0'

/-- The digit one. -/
abbrev one : CodePoint := '1'

/-- The blank of a tape. -/
abbrev underscore : CodePoint := '_'

/-- All code points are binary digits. -/
def IsBinary (w : Text) : Prop :=
  ∀ x ∈ w, x = zero ∨ x = one

/-- A given word can be tested for other symbols than digits. -/
instance (w : Text) : Decidable w.IsBinary :=
  inferInstanceAs (Decidable (∀ x ∈ w, x = zero ∨ x = one))

/-- The value of a digit. -/
def bit (x : CodePoint) : Nat := if x = one then 1 else 0

/-- The value of a numeral, whose last digit counts least. -/
def binaryValue (w : Text) : Nat :=
  Nat.ofDigits 2 (w.reverse.map bit)

/-- The numeral of `v`, with zeros before it up to `n` digits. -/
def binaryNumeral (n v : Nat) : Text :=
  ((Nat.digitsAppend 2 n v).map fun b => if b = 1 then one else zero).reverse

/-- The number of ones at the end. -/
def trailingOnes (w : Text) : Nat :=
  (w.rtakeWhile (· == one)).length

variable {u w : Text} {t : Nat}

/-- A word of digits is the numeral of its value in its own length. -/
theorem binaryNumeral_binaryValue (hw : w.IsBinary) : binaryNumeral w.length w.binaryValue = w := by
  have hdigits : (w.reverse.map bit).length = w.length ∧ ∀ b ∈ w.reverse.map bit, b < 2 := by
    refine ⟨by simp, fun b hb => ?_⟩
    obtain ⟨x, -, rfl⟩ := List.mem_map.1 hb
    rw [bit]
    split <;> decide
  have hinverse := (Nat.setInvOn_digitsAppend_ofDigits Nat.one_lt_two w.length).1 hdigits
  have hdigit : ∀ x ∈ w.reverse, ((fun b => if b = 1 then one else zero) ∘ bit) x = id x := by
    intro x hx
    rcases hw x (List.mem_reverse.1 hx) with rfl | rfl <;> rfl
  rw [binaryNumeral, binaryValue, hinverse, List.map_map, List.map_congr_left hdigit,
    List.map_id, List.reverse_reverse]

/-- The digits in front count by the power of two of what follows. -/
theorem binaryValue_append (u w : Text) :
    binaryValue (u ++ w) = binaryValue w + 2 ^ w.length * binaryValue u := by
  simp [binaryValue, Nat.ofDigits_append]

theorem binaryValue_cons (x : CodePoint) (w : Text) :
    binaryValue (x :: w) = binaryValue w + 2 ^ w.length * bit x := by
  rw [← List.singleton_append, binaryValue_append]
  simp [binaryValue]

theorem binaryValue_zeros (t : Nat) : binaryValue (List.replicate t zero) = 0 := by
  induction t with
  | zero => rfl
  | succ t ih => simp [List.replicate_succ, binaryValue_cons, ih, bit]

/-- A number of ones only lies right below a power of two. -/
theorem binaryValue_ones (t : Nat) : binaryValue (List.replicate t one) + 1 = 2 ^ t := by
  induction t with
  | zero => rfl
  | succ t ih =>
    rw [List.replicate_succ, binaryValue_cons, bit, if_pos rfl, List.length_replicate, pow_succ]
    omega

theorem IsBinary.append_one_zeros (hu : u.IsBinary) (t : Nat) :
    IsBinary (u ++ one :: List.replicate t zero) := by
  intro x hx
  rcases List.mem_append.1 hx with hx | hx
  · exact hu x hx
  · rcases List.mem_cons.1 hx with rfl | hx
    · exact Or.inr rfl
    · exact Or.inl (List.eq_of_mem_replicate hx)

/-- One more is a one in the place of the last zero, and zeros in the places after it. -/
theorem binaryValue_succ (u : Text) (t : Nat) :
    binaryValue (u ++ zero :: List.replicate t one) + 1 =
      binaryValue (u ++ one :: List.replicate t zero) := by
  have hones := binaryValue_ones t
  have hzero : bit zero = 0 := rfl
  have hone : bit one = 1 := rfl
  simp only [binaryValue_append, binaryValue_cons, binaryValue_zeros, List.length_cons,
    List.length_replicate, hzero, hone]
  omega

/-- One more turns the ones at the end into zeros, and the zero before them into a one. -/
theorem binaryNumeral_succ (hu : u.IsBinary) (hw : w = u ++ zero :: List.replicate t one) :
    binaryNumeral w.length (w.binaryValue + 1) = u ++ one :: List.replicate t zero := by
  have hlength : w.length = (u ++ one :: List.replicate t zero).length := by
    simp [hw]
  rw [hlength, hw, binaryValue_succ, binaryNumeral_binaryValue (hu.append_one_zeros t)]

/-- The ones at the end follow a zero, if there are not only ones. -/
theorem IsBinary.eq_append_ones (hw : w.IsBinary) :
    w = List.replicate w.trailingOnes one ∨
      ∃ u, IsBinary u ∧ w = u ++ zero :: List.replicate w.trailingOnes one := by
  have hones : w.rtakeWhile (· == one) = List.replicate w.trailingOnes one :=
    List.eq_replicate_of_mem fun _ hx =>
      beq_iff_eq.1 (List.mem_rtakeWhile_imp (p := (· == one)) hx)
  have hsplit : w.rdropWhile (· == one) ++ List.replicate w.trailingOnes one = w := by
    rw [← hones]
    exact List.rdropWhile_append_rtakeWhile
  rcases List.eq_nil_or_concat (w.rdropWhile (· == one)) with hnil | ⟨u, x, hux⟩
  · rw [hnil] at hsplit
    exact Or.inl hsplit.symm
  · have hkept := List.rdropWhile_idempotent (· == one) w
    rw [hux, List.concat_eq_append, List.rdropWhile_eq_self_iff] at hkept
    rw [hux, List.concat_eq_append, List.append_assoc, List.singleton_append] at hsplit
    have hne : x ≠ one := by simpa using hkept (by simp)
    have hbinary : IsBinary (u ++ x :: List.replicate w.trailingOnes one) := by
      rw [hsplit]
      exact hw
    obtain rfl : x = zero := (hbinary x (by simp)).resolve_right hne
    exact Or.inr ⟨u, fun y hy => hbinary y (by simp [hy]), hsplit.symm⟩

end Text

/-! ## Runs of the machine -/

/-- The machine has the word `w` for its input and stands in the state `q` over the cell `i` of a
tape with the text `u`. -/
def Configuration.onTape (w q : Text) (i : Int) (u : Text) : Configuration where
  input := w
  state := some q
  cursor := 0
  head := i
  stack := .empty
  tape := .ofInput u Tape.defaultBlank

namespace BinaryIncrement

open AutomatonLab.Configuration Catalog

variable {w p q read write m l r u : Text} {x y : CodePoint} {k t : Nat}
  {c d : Configuration} {v : Status}

/-- The machine takes the transition from its state that reads the scanned symbol. -/
theorem finishes_of_scanned
    (ht : ⟨p, q, .tm read write m⟩ ∈ binaryIncrement.automaton.transitions)
    (hstate : c.state = some p) (hread : c.tape.read c.head = read)
    (h : Finishes binaryIncrement.automaton
      { c with
        state := some q
        tape := c.tape.write c.head write
        head := Tape.move c.head m } k d v) :
    Finishes binaryIncrement.automaton c (k + 1) d v := by
  have hchoice : c.isFinal binaryIncrement.automaton = false ∧
      c.firstEligible? binaryIncrement.automaton read = some ⟨p, q, .tm read write m⟩ := by
    obtain ⟨input, state, cursor, head, stack, tape⟩ := c
    obtain rfl : state = some p := hstate
    simp only [binaryIncrement, List.mem_cons, List.not_mem_nil, or_false] at ht
    rcases ht with ht | ht | ht | ht | ht | ht <;> cases ht <;> exact ⟨rfl, rfl⟩
  exact .step (.readTm rfl hchoice.1 (hread ▸ hchoice.2) rfl) h

/-- A transition over a cell of the text. -/
theorem finishes_over
    (ht : ⟨p, q, .tm [x] [y] m⟩ ∈ binaryIncrement.automaton.transitions)
    (h : Finishes binaryIncrement.automaton
      (onTape w q (Tape.move l.length m) (l ++ y :: r)) k d v) :
    Finishes binaryIncrement.automaton (onTape w p l.length (l ++ x :: r)) (k + 1) d v := by
  refine finishes_of_scanned ht rfl (Tape.read_ofInput_append l r _ x) ?_
  simp only [onTape, Tape.write_ofInput_append]
  exact h

/-- A transition over the first cell after the text. -/
theorem finishes_after
    (ht : ⟨p, q, .tm "_" [y] m⟩ ∈ binaryIncrement.automaton.transitions)
    (h : Finishes binaryIncrement.automaton
      (onTape w q (Tape.move l.length m) (l ++ [y])) k d v) :
    Finishes binaryIncrement.automaton (onTape w p l.length l) (k + 1) d v := by
  refine finishes_of_scanned ht rfl (Tape.read_ofInput_length l _) ?_
  simp only [onTape, Tape.write_ofInput_length]
  exact h

/-- The machine goes over the digits ahead of it and leaves them as they are. -/
theorem finishes_scan (hr : r.IsBinary)
    (h : Finishes binaryIncrement.automaton (onTape w "q0" (l ++ r).length (l ++ r)) k d v) :
    Finishes binaryIncrement.automaton (onTape w "q0" l.length (l ++ r)) (k + r.length) d v := by
  induction r generalizing l with
  | nil => simpa using h
  | cons x r ih =>
    have hright : Tape.move l.length Label.right = ((l ++ [x]).length : Int) := by
      rw [Tape.move_right, List.length_append]
      rfl
    have hbinary : Text.IsBinary r := fun y hy => hr y (List.mem_cons_of_mem x hy)
    have hnext := ih (l := l ++ [x]) hbinary (by simpa using h)
    rw [← hright, List.append_assoc, List.singleton_append] at hnext
    rcases hr x List.mem_cons_self with rfl | rfl
    · exact finishes_over (by decide) hnext
    · exact finishes_over (by decide) hnext

/-- The machine goes back over ones, which become zeros. -/
theorem finishes_carry
    (h : Finishes binaryIncrement.automaton
      (onTape w "q1" (l.length - 1 : Nat) (l ++ (List.replicate t Text.zero ++ r))) k d v) :
    Finishes binaryIncrement.automaton
      (onTape w "q1" (l.length + t - 1 : Nat) (l ++ (List.replicate t Text.one ++ r)))
      (k + t) d v := by
  induction t generalizing r with
  | zero => exact h
  | succ t ih =>
    have hrest := ih (r := Text.zero :: r) (by
      rwa [List.replicate_succ', List.append_assoc, List.singleton_append] at h)
    have hlength : (l ++ List.replicate t Text.one).length = l.length + (t + 1) - 1 := by
      simp
    rw [List.replicate_succ', List.append_assoc, List.singleton_append, ← List.append_assoc,
      ← hlength]
    refine finishes_over (q := "q1") (y := Text.zero) (m := Label.left) (by decide) ?_
    rw [Tape.move_left, List.append_assoc, List.length_append, List.length_replicate]
    exact hrest

/-- From the start the machine comes back to the digit before the ones at the end. -/
theorem finishes_start (hw : w.IsBinary) (hl : w = l ++ List.replicate t Text.one)
    (h : Finishes binaryIncrement.automaton (onTape w "q1" (l.length - 1 : Nat)
      (l ++ (List.replicate t Text.zero ++ [Text.underscore]))) k d v) :
    Finishes binaryIncrement.automaton (.start binaryIncrement.automaton w)
      (k + t + 1 + w.length) d v := by
  have hcarry := finishes_carry h
  have hlength : w.length = l.length + t := by
    rw [hl, List.length_append, List.length_replicate]
  rw [← List.append_assoc, ← hl, ← hlength, ← Tape.move_left] at hcarry
  exact finishes_scan (l := []) hw (finishes_after (by decide) hcarry)

/-- The symbol that the machine comes back to takes the carry, and the machine halts. -/
theorem finishes_increment (hw : w.IsBinary) (hl : w = l ++ List.replicate t Text.one)
    (ht : ⟨"q1", "q2", .tm [x] [Text.one] Label.right⟩ ∈ binaryIncrement.automaton.transitions)
    (hlength : l.length - 1 = u.length)
    (hx : l ++ (List.replicate t Text.zero ++ [Text.underscore]) = u ++ x :: r) :
    Finishes binaryIncrement.automaton (.start binaryIncrement.automaton w) (w.length + t + 2)
      (onTape w "q2" (u.length + 1) (u ++ Text.one :: r)) .accepted := by
  have hk : w.length + t + 2 = 0 + 1 + t + 1 + w.length := by omega
  rw [hk]
  refine finishes_start hw hl ?_
  rw [hx, hlength]
  refine finishes_over ht ?_
  rw [Tape.move_right]
  exact .halt (.final rfl rfl)

theorem content_digits (hu : u.IsBinary) : (Tape.ofInput u Tape.defaultBlank).content = u := by
  rw [Tape.content_ofInput, Text.stripEnds_eq_self]
  intro x hx
  rcases hu x hx with rfl | rfl <;> decide

/-- A blank behind the digits is no part of the number. -/
theorem content_digits_blank (hu : u.IsBinary) :
    (Tape.ofInput (u ++ [Text.underscore]) Tape.defaultBlank).content = u := by
  rw [Tape.content_ofInput, Text.stripEnds_append (by decide), ← Tape.content_ofInput,
    content_digits hu]

/-- The number holds a zero : the carry ends there. -/
theorem finishes_of_zero (hw : w.IsBinary) (hu : w = u ++ Text.zero :: List.replicate t Text.one) :
    ∃ d, Finishes binaryIncrement.automaton (.start binaryIncrement.automaton w)
        (w.length + t + 2) d .accepted ∧
      d.tape.content = u ++ Text.one :: List.replicate t Text.zero := by
  have hbinary : u.IsBinary := fun x hx => hw x (by simp [hu, hx])
  refine ⟨_, finishes_increment (l := u ++ [Text.zero]) (u := u) (x := Text.zero) hw (by simp [hu])
    (by decide) (by simp) (List.append_assoc _ _ _), ?_⟩
  have hcontent := content_digits_blank (hbinary.append_one_zeros t)
  rwa [List.append_assoc, List.cons_append] at hcontent

/-- Of ones only, the first one stays, since there is no cell before it. -/
theorem finishes_of_ones (hw : w = List.replicate t Text.one) :
    ∃ d, Finishes binaryIncrement.automaton (.start binaryIncrement.automaton w)
        (w.length + t + 2) d .accepted ∧
      d.tape.content = Text.one :: List.replicate (t - 1) Text.zero := by
  have hbinary : w.IsBinary := fun x hx => Or.inr (List.eq_of_mem_replicate (hw ▸ hx))
  cases t with
  | zero =>
    refine ⟨_, finishes_increment (l := []) (u := []) (t := 0) (x := Text.underscore) hbinary
      hw (by decide) rfl rfl, ?_⟩
    exact content_digits (u := [Text.one]) (by decide)
  | succ n =>
    refine ⟨_, finishes_increment (l := []) (u := []) (x := Text.zero) hbinary
      hw (by decide) rfl rfl, ?_⟩
    exact content_digits_blank (Text.IsBinary.append_one_zeros (u := []) (by decide) n)

end BinaryIncrement

open BinaryIncrement Control in
/-- Without timers and without a limit the automatic run on a binary word returns, and the machine
has accepted after two more transitions than the word has digits and ones at the end. The tape holds
the next numeral with as many digits, if the word has a zero. It holds a one if the word is empty,
and otherwise a one before zeros that are one fewer than the ones of the word. -/
theorem exec_run_binaryIncrement {σ : Type} {notify : Notify σ} {w : Text} {delay : Int}
    {owner : Nat} {outside : σ} {d : Desk σ} {allowance : Nat} (hn : Passive notify)
    (hd : Desk.start Catalog.binaryIncrement.automaton w delay false none none owner outside =
      .ok d) (hw : w.IsBinary)
    (hroom : w.length + w.trailingOnes + 4 ≤ allowance) :
    ∃ d' c, exec (run notify allowance) d = (.ok true, d') ∧
      d'.engine.Ended (w.length + w.trailingOnes + 2) c .accepted ∧
      (Text.zero ∈ w → c.tape.content = Text.binaryNumeral w.length (w.binaryValue + 1)) ∧
      (w = [] → c.tape.content = [Text.one]) ∧
      (w ≠ [] → Text.zero ∉ w →
        c.tape.content = Text.one :: List.replicate (w.length - 1) Text.zero) := by
  have ha : Catalog.binaryIncrement.automaton.Typed := by decide
  rcases hw.eq_append_ones with hones | ⟨u, hu, hzero⟩
  · obtain ⟨c, hc, hcontent⟩ := finishes_of_ones hones
    obtain ⟨d', hrun, hended⟩ := exec_run_finishes ha hn hd hc hroom
    have hlength : w.length = w.trailingOnes := by simpa using congrArg List.length hones
    refine ⟨d', c, hrun, hended, fun hmem => ?_, ?_, fun _ _ => ?_⟩
    · rw [hones] at hmem
      exact absurd (List.eq_of_mem_replicate hmem) (by decide)
    · rintro rfl
      rw [hcontent]
      rfl
    · rw [hcontent, hlength]
  · obtain ⟨c, hc, hcontent⟩ := finishes_of_zero hw hzero
    obtain ⟨d', hrun, hended⟩ := exec_run_finishes ha hn hd hc hroom
    have hmem : Text.zero ∈ w := by
      rw [hzero]
      simp
    refine ⟨d', c, hrun, hended, fun _ => ?_, ?_, fun _ hnot => absurd hmem hnot⟩
    · rw [hcontent, Text.binaryNumeral_succ hu hzero]
    · rintro rfl
      exact absurd hmem List.not_mem_nil

open Control in
/-- The machine takes eight transitions on a word of four digits that ends in two ones, and six on
two ones. -/
theorem exec_run_binaryIncrement_1011 :
    let quiet : Notify Unit := fun _ => pure ()
    let start (w : Text) := Desk.start Catalog.binaryIncrement.automaton w 200 false none none 0 ()
    Passive quiet ∧ Text.IsBinary "1011" ∧ Text.IsBinary "11" ∧
      (∃ d d' c, start "1011" = .ok d ∧ exec (run quiet 10) d = (.ok true, d') ∧
        d'.engine.Ended 8 c .accepted ∧ c.tape.content = "1100") ∧
      ∃ d d' c, start "11" = .ok d ∧ exec (run quiet 8) d = (.ok true, d') ∧
        d'.engine.Ended 6 c .accepted ∧ c.tape.content = "10" := by
  intro quiet start
  have hn : Passive quiet := fun _ d => ⟨d.outside, rfl⟩
  have h1011 : Text.IsBinary "1011" := by decide
  have h11 : Text.IsBinary "11" := by decide
  refine ⟨hn, h1011, h11, ?_, ?_⟩
  · obtain ⟨d, hd⟩ : ∃ d, start "1011" = .ok d := ⟨_, rfl⟩
    obtain ⟨d', c, hrun, hended, hcontent, -⟩ :=
      exec_run_binaryIncrement hn hd h1011 (Nat.le_refl 10)
    refine ⟨d, d', c, hd, hrun, hended, ?_⟩
    rw [hcontent (by decide)]
    decide
  · obtain ⟨d, hd⟩ : ∃ d, start "11" = .ok d := ⟨_, rfl⟩
    obtain ⟨d', c, hrun, hended, -, -, hcontent⟩ :=
      exec_run_binaryIncrement hn hd h11 (Nat.le_refl 8)
    refine ⟨d, d', c, hd, hrun, hended, ?_⟩
    rw [hcontent (by decide) (by decide)]
    rfl

end AutomatonLab
