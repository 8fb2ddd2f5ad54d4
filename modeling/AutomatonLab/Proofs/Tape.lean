import AutomatonLab.Memory.Tape

/-!
# The tape as an array

A tape is an array without a right end, in which all cells hold the blank symbol at first : a cell
holds what was last written into it (`Tape.read_write`), and a write adds the cells up to its own
(`Tape.size_write`). A position left of the first cell counts as the first one when it is written
into. The head moves by at most one cell, and never left of the first cell (`Tape.move_nonneg`,
`Tape.move_le`).

The content of a tape is the text of its cells without the code points of the blank symbol at both
ends. So it can be read off any number of cells beyond which all are blank, whether these were
filled or not (`Tape.content_eq`), and tapes that read alike have one content
(`Tape.content_eq_of_read`).
-/

namespace AutomatonLab

/-- Code points of the class at the end do not count. -/
theorem Text.stripEnds_append {p : CodePoint → Bool} {xs ys : Text}
    (hys : ∀ c ∈ ys, p c = true) : stripEnds p (xs ++ ys) = stripEnds p xs := by
  have hnone : ys.dropWhile p = [] := by
    rw [← List.append_nil ys]
    exact List.dropWhile_append_of_pos hys
  have hlast : ∀ zs : Text, (zs ++ ys).reverse.dropWhile p = zs.reverse.dropWhile p := by
    intro zs
    rw [List.reverse_append]
    exact List.dropWhile_append_of_pos fun c hc => hys c (List.mem_reverse.1 hc)
  rw [stripEnds, stripEnds, List.dropWhile_append]
  split
  case isTrue hempty => rw [hnone, List.isEmpty_iff.1 hempty]
  case isFalse => rw [hlast]

/-- A text without code points of the class is left as it is. -/
theorem Text.stripEnds_eq_self {p : CodePoint → Bool} {t : Text} (h : ∀ c ∈ t, p c = false) :
    stripEnds p t = t := by
  have hkeep : ∀ s : Text, (∀ c ∈ s, p c = false) → s.dropWhile p = s := by
    intro s hs
    cases s with
    | nil => rfl
    | cons c s => rw [List.dropWhile_cons_of_neg (by simp [hs c List.mem_cons_self])]
  rw [stripEnds, hkeep t h, hkeep t.reverse fun c hc => h c (List.mem_reverse.1 hc),
    List.reverse_reverse]

namespace Tape

variable {t : Tape} {head i : Int} {symbol direction : Text}

theorem read_ofNat (t : Tape) (n : Nat) : t.read n = t.cells[n]?.getD t.blank :=
  rfl

theorem read_of_neg (hi : i < 0) : t.read i = t.blank := by
  obtain ⟨n, rfl⟩ := Int.eq_negSucc_of_lt_zero hi
  rfl

/-- Beyond its cells a tape is blank. -/
theorem read_of_size_le (hi : (t.size : Int) ≤ i) : t.read i = t.blank := by
  obtain ⟨n, rfl⟩ := Int.eq_ofNat_of_zero_le (Int.le_trans (Int.natCast_nonneg _) hi)
  have hn : t.cells.length ≤ n := Int.ofNat_le.1 hi
  rw [read_ofNat, List.getElem?_eq_none hn, Option.getD_none]

@[simp] theorem blank_write (t : Tape) (head : Int) (symbol : Text) :
    (t.write head symbol).blank = t.blank :=
  rfl

theorem size_ofInput (input blank : Text) : (ofInput input blank).size = input.length :=
  List.length_map _

/-- A write beyond the end makes the tape as long as needed. -/
theorem size_write (t : Tape) (head : Int) (symbol : Text) :
    (t.write head symbol).size = max t.size (head.toNat + 1) := by
  simp only [write, size, List.length_set, List.length_append, List.length_replicate]
  omega

/-- The cells that a write adds are blank but for the last one. -/
theorem getD_filled (cells : List Text) (blank : Text) (k n : Nat) :
    (cells ++ List.replicate k blank)[n]?.getD blank = cells[n]?.getD blank := by
  rcases Nat.lt_or_ge n cells.length with hlt | hge
  · rw [List.getElem?_append_left hlt]
  · rw [List.getElem?_append_right hge, List.getElem?_replicate, List.getElem?_eq_none hge]
    split <;> rfl

/-- Only the written cell has changed, and a write to the left of the tape goes to its first
cell. -/
theorem read_write (t : Tape) (head i : Int) (symbol : Text) :
    (t.write head symbol).read i = if i = max 0 head then symbol else t.read i := by
  rcases Int.lt_or_le i 0 with hneg | hnonneg
  · rw [if_neg (by omega), read_of_neg hneg, read_of_neg hneg, blank_write]
  · obtain ⟨n, rfl⟩ := Int.eq_ofNat_of_zero_le hnonneg
    rw [read_ofNat, read_ofNat]
    simp only [write]
    by_cases hn : n = head.toNat
    · rw [if_pos (by omega), hn, List.getElem?_set_self (by simp; omega)]
      rfl
    · rw [if_neg (by omega), List.getElem?_set_ne (Ne.symm hn)]
      exact getD_filled t.cells t.blank _ n

/-- The head does not leave the tape on the left. -/
theorem move_nonneg (hhead : 0 ≤ head) : 0 ≤ move head direction := by
  unfold move
  split
  · omega
  · split <;> omega

/-- The head moves by one cell at most. -/
theorem move_le (hhead : 0 ≤ head) : move head direction ≤ head + 1 := by
  unfold move
  split
  · omega
  · split <;> omega

theorem move_right (head : Int) : move head Label.right = head + 1 :=
  if_pos rfl

/-- The head goes left, but not beyond the first cell. -/
theorem move_left (n : Nat) : move n Label.left = ((n - 1 : Nat) : Int) := by
  have hne : Label.left ≠ Label.right := by decide
  rw [move, if_neg hne, if_pos rfl]
  omega

/-! ## A code point in each cell -/

section Singletons

variable (left right blank : Text) (x y : CodePoint)

theorem read_ofInput_append : (ofInput (left ++ x :: right) blank).read left.length = [x] := by
  simp [read_ofNat, ofInput, Text.singletons]

theorem write_ofInput_append : (ofInput (left ++ x :: right) blank).write left.length [y] =
    ofInput (left ++ y :: right) blank := by
  simp [write, ofInput, Text.singletons]

theorem read_ofInput_length : (ofInput left blank).read left.length = blank :=
  read_of_size_le (Int.ofNat_le.2 (Nat.le_of_eq (size_ofInput left blank)))

theorem write_ofInput_length : (ofInput left blank).write left.length [x] =
    ofInput (left ++ [x]) blank := by
  simp [write, ofInput, Text.singletons]

end Singletons

/-! ## The content -/

/-- The content of a new tape is the input without the blanks around it. -/
theorem content_ofInput (input blank : Text) :
    (ofInput input blank).content = Text.stripEnds (fun c => blank.contains c) input := by
  have hflatten : (Text.singletons input).flatten = input := by
    rw [Text.singletons, ← List.flatMap_def, List.flatMap_singleton']
  rw [content, ofInput, hflatten]

/-- The text of the cells from `n` on does not count if all of it is blank. -/
theorem stripEnds_flatMap_range {p : CodePoint → Bool} {f : Nat → Text} {n k : Nat} (hnk : n ≤ k)
    (hf : ∀ i ≥ n, ∀ c ∈ f i, p c = true) :
    Text.stripEnds p ((List.range k).flatMap f) = Text.stripEnds p ((List.range n).flatMap f) := by
  obtain ⟨m, rfl⟩ := Nat.exists_eq_add_of_le hnk
  rw [List.range_add, List.flatMap_append, List.flatMap_map]
  refine Text.stripEnds_append fun c hc => ?_
  obtain ⟨i, -, hi⟩ := List.mem_flatMap.1 hc
  exact hf (n + i) (Nat.le_add_right n i) c hi

/-- The cells, one after the other, are what is read at their places. -/
theorem flatten_cells (t : Tape) :
    t.cells.flatten = (List.range t.size).flatMap fun i : Nat => t.read i := by
  have hcells : (List.range t.size).map (fun i : Nat => t.read i) = t.cells := by
    refine List.ext_getElem (by simp [size]) fun i hi hi' => ?_
    simp [read_ofNat, List.getElem?_eq_getElem hi']
  rw [List.flatMap_def, hcells]

/-- The content can be read off any stretch that has all cells that are not blank. -/
theorem content_eq {n : Nat} (hn : ∀ i : Nat, n ≤ i → t.read i = t.blank) :
    t.content = Text.stripEnds (fun c => t.blank.contains c)
      ((List.range n).flatMap fun i : Nat => t.read i) := by
  have hblank : ∀ m, (∀ i : Nat, m ≤ i → t.read i = t.blank) →
      ∀ i ≥ m, ∀ c ∈ t.read (i : Nat), t.blank.contains c = true := by
    intro m hm i hi c hc
    rw [hm i hi] at hc
    exact List.contains_iff_mem.2 hc
  have hsize : ∀ i : Nat, t.size ≤ i → t.read i = t.blank := fun i hi =>
    read_of_size_le (Int.ofNat_le.2 hi)
  rw [content, flatten_cells, ← stripEnds_flatMap_range (Nat.le_max_left t.size n) (hblank _ hsize),
    stripEnds_flatMap_range (Nat.le_max_right t.size n) (hblank _ hn)]

/-- Tapes that are read alike have the same content. -/
theorem content_eq_of_read {t u : Tape} (hblank : u.blank = t.blank)
    (hread : ∀ k ≥ 0, t.read k = u.read k) : t.content = u.content := by
  have hblanks : ∀ v : Tape, v.size ≤ max t.size u.size →
      ∀ k : Nat, max t.size u.size ≤ k → v.read k = v.blank := fun v hv k hk =>
    read_of_size_le (Int.ofNat_le.2 (Nat.le_trans hv hk))
  have halike : (fun k : Nat => t.read k) = fun k : Nat => u.read k :=
    funext fun k => hread k (Int.natCast_nonneg k)
  rw [content_eq (hblanks t (Nat.le_max_left _ _)), content_eq (hblanks u (Nat.le_max_right _ _)),
    halike, hblank]

/-- A blank beyond the cells is read there anyway. -/
theorem content_write_blank (hhead : (t.size : Int) ≤ max 0 head) :
    (t.write head t.blank).content = t.content := by
  refine content_eq_of_read (blank_write t head t.blank).symm fun k _ => ?_
  rw [read_write]
  split
  case isTrue hk => rw [hk, read_of_size_le hhead]
  case isFalse => rfl

/-- There is room for a symbol unless it stands far beyond the cells. -/
theorem writeFar_eq (t : Tape) (head : Int) (symbol : Text) :
    t.writeFar head symbol = .ok (t.write head symbol) ∨ room ≤ t.missing head := by
  by_cases hroom : room ≤ t.missing head
  · exact Or.inr hroom
  · have hcountable : ¬ uncountable ≤ t.missing head := by
      simp only [room, uncountable] at hroom ⊢
      omega
    exact Or.inl (by rw [writeFar, if_neg hcountable, if_neg hroom])

/-! ## An array with a default -/

/-- A write is read back where it was made, the first cell standing for all positions left of it,
and no other position reads anything else than before. It adds the cells up to its own. Tapes with
one blank symbol that read alike have the same content, so a blank written beyond the cells does not
change the content. -/
theorem array_of_blanks (t u : Tape) (head i : Int) (symbol : Text) :
    (t.writeFar head symbol = .ok (t.write head symbol) ∨ room ≤ t.missing head) ∧
      (t.write head symbol).read (max 0 head) = symbol ∧
      (i ≠ max 0 head → (t.write head symbol).read i = t.read i) ∧
      ((t.write head symbol).size : Int) = max (t.size : Int) (max 0 head + 1) ∧
      (u.blank = t.blank → (∀ k ≥ 0, t.read k = u.read k) → t.content = u.content) ∧
      ((t.size : Int) ≤ max 0 head → (t.write head t.blank).content = t.content) := by
  refine ⟨writeFar_eq t head symbol, ?_, ?_, ?_, content_eq_of_read, content_write_blank⟩
  · rw [read_write, if_pos rfl]
  · intro hi
    rw [read_write, if_neg hi]
  · rw [size_write]
    omega

/-- With the blank symbol `xy`, a cell that was filled with it counts no more than one that was
not. -/
theorem array_of_blanks_filled :
    let short : Tape := ⟨["a", "b"], "xy"⟩
    let long : Tape := ⟨["a", "b", "xy"], "xy"⟩
    short.content = long.content ∧ (short.write 4 "xy").content = short.content ∧
      (short.write (-3) "c").read 1 = "b" := by
  refine ⟨(array_of_blanks ⟨["a", "b"], "xy"⟩ ⟨["a", "b", "xy"], "xy"⟩ 0 0 "c").2.2.2.2.1 rfl ?_,
    (array_of_blanks ⟨["a", "b"], "xy"⟩ ⟨["a", "b"], "xy"⟩ 4 0 "c").2.2.2.2.2 (by decide),
    (array_of_blanks ⟨["a", "b"], "xy"⟩ ⟨["a", "b"], "xy"⟩ (-3) 1 "c").2.2.1 (by decide)⟩
  intro k hk
  obtain ⟨n, rfl⟩ := Int.eq_ofNat_of_zero_le hk
  match n with
  | 0 => rfl
  | 1 => rfl
  | 2 => rfl
  | n + 3 => rfl

end Tape

end AutomatonLab
