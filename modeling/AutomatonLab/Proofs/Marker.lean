import AutomatonLab.Proofs.AnyInput

/-!
# The marker of the memory strip

The marker of a strip stands over the middle of the cell under the head, where the symbol is written
that the machine reads (`MemoryStrip.draw_of_tm`, `Window.reads_underHead`). This needs that the head
is on the filled cells or right behind them, so that one more cell is enough, and it holds whatever
has happened at a desktop (`marker_over_head`). But a strip begins at the left end of the tape and has
a fixed number of cells, so that a marker farther to the right stands over nothing.
-/

namespace AutomatonLab

open Control

namespace MemoryStrip

/-! ## What is drawn where -/

/-- The item is a marker; nothing else on the strip is a polygon. -/
def isMarker (i : Item Int) : Bool := i.kind == .polygon

/-- A frame with its middle at `x`. -/
def isFrameAt (x : Int) (i : Item Int) : Bool :=
  i.kind == .rectangle &&
    match i.coords with
    | [left, _, right, _] => left + right == 2 * x
    | _ => false

/-- A text at `x` in the row of cells. -/
def isSymbolAt (x : Int) (i : Item Int) : Bool :=
  i.kind == .text && i.coords == [x, base - cellSize / 2]

/-- There is one marker, and it points down at `x`, right above the cells. -/
def MarkedAt (items : List (Item Int)) (x : Int) : Prop :=
  ∃ marker, items.filter isMarker = [marker] ∧
    marker.coords = [x, base - cellSize - 2, x - 5, base - cellSize - 12, x + 5,
      base - cellSize - 12]

/-- There is one cell with its middle at `x`, and one symbol in it, which is `v`. -/
def ShowsAt (items : List (Item Int)) (x : Int) (v : Json) : Prop :=
  (∃ frame, items.filter (isFrameAt x) = [frame]) ∧
    ∃ symbol, items.filter (isSymbolAt x) = [symbol] ∧ symbol.style.text = some v

/-- The middle of cell number `n` of a tape. -/
def middle (n : Nat) : Int := margin + n * cellSize + cellSize / 2

/-! ## One cell of a row -/

/-- Of the items of a row, at most those of one number are left. -/
theorem flatMap_zipIdx_ite {α β : Type} (g : α → β) (xs : List α) (k n : Nat) :
    ((xs.zipIdx k).flatMap fun p => if p.2 = k + n then [g p.1] else []) =
      (xs[n]?.map g).toList := by
  induction xs generalizing k n with
  | nil => rfl
  | cons x xs ih =>
    rw [List.zipIdx_cons, List.flatMap_cons]
    cases n with
    | zero =>
      have hrest : ((xs.zipIdx (k + 1)).flatMap fun p => if p.2 = k + 0 then [g p.1] else []) =
          [] := by
        refine List.flatMap_eq_nil_iff.2 fun p hp => if_neg ?_
        have hle := List.le_snd_of_mem_zipIdx hp
        omega
      rw [hrest]
      simp
    | succ n =>
      have hnext : k + (n + 1) = k + 1 + n := by omega
      rw [hnext, ih (k + 1) n, if_neg (by omega)]
      simp

/-- Of a row, what a test finds stands in one column. -/
theorem filter_rowItems {p : Item Int → Bool} {x : Int} {n : Nat} {g : Json → Item Int}
    (hp : ∀ i v, (cell x i v "#f1f5f9" "#cbd5e1").filter p = if i = n then [g v] else [])
    (cells : List Json) :
    (rowItems x cells).filter p = ((cells.take shownCells)[n]?.map g).toList := by
  rw [rowItems, List.filter_flatMap, ← flatMap_zipIdx_ite g (cells.take shownCells) 0 n]
  refine List.flatMap_congr fun q _ => ?_
  rw [hp, Nat.zero_add]

/-- The frame of cell number `i` of a tape. -/
def frameItem (i : Nat) : Item Int where
  kind := .rectangle
  coords := [cellLeft margin i, base - cellSize, cellLeft margin i + cellSize, base]
  style := { fill := some "#f1f5f9", outline := some "#cbd5e1" }

/-- The symbol in cell number `i` of a tape. -/
def symbolItem (i : Nat) (v : Json) : Item Int where
  kind := .text
  coords := [cellLeft margin i + cellSize / 2, base - cellSize / 2]
  style := { text := some v, font := some (Font.plain "Courier" 12) }

theorem cell_margin (i : Nat) (v : Json) :
    cell margin i v "#f1f5f9" "#cbd5e1" = [frameItem i, symbolItem i v] :=
  rfl

/-- Each frame stands in its own column. -/
theorem isFrameAt_frameItem (n i : Nat) : isFrameAt (middle n) (frameItem i) = decide (i = n) := by
  simp only [isFrameAt, frameItem, middle, cellLeft, cellSize, margin, BEq.rfl, Bool.true_and]
  rw [Bool.eq_iff_iff, beq_iff_eq, decide_eq_true_iff]
  omega

/-- Each symbol stands in its own cell. -/
theorem isSymbolAt_symbolItem (n i : Nat) (v : Json) :
    isSymbolAt (middle n) (symbolItem i v) = decide (i = n) := by
  simp only [isSymbolAt, symbolItem, middle, cellLeft, cellSize, margin, BEq.rfl, Bool.true_and]
  rw [Bool.eq_iff_iff, beq_iff_eq, decide_eq_true_iff, List.cons.injEq, and_iff_left rfl]
  omega

/-- A column of a row has one frame, if it is shown. -/
theorem filter_isFrameAt_rowItems (n : Nat) (cells : List Json) :
    (rowItems margin cells).filter (isFrameAt (middle n)) =
      ((cells.take shownCells)[n]?.map fun _ => frameItem n).toList := by
  refine filter_rowItems (fun i v => ?_) cells
  have hsymbol : isFrameAt (middle n) (symbolItem i v) = false := rfl
  rw [cell_margin, List.filter_cons, isFrameAt_frameItem, List.filter_cons, hsymbol]
  by_cases hi : i = n <;> simp [hi]

/-- A column of a row has one symbol, if it is shown. -/
theorem filter_isSymbolAt_rowItems (n : Nat) (cells : List Json) :
    (rowItems margin cells).filter (isSymbolAt (middle n)) =
      ((cells.take shownCells)[n]?.map (symbolItem n)).toList := by
  refine filter_rowItems (fun i v => ?_) cells
  have hframe : isSymbolAt (middle n) (frameItem i) = false := rfl
  rw [cell_margin, List.filter_cons, hframe, List.filter_cons, isSymbolAt_symbolItem]
  by_cases hi : i = n <;> simp [hi]

theorem filter_isMarker_rowItems (x : Int) (cells : List Json) :
    (rowItems x cells).filter isMarker = [] := by
  rw [rowItems, List.filter_flatMap]
  exact List.flatMap_eq_nil_iff.2 fun q _ => rfl

/-! ## The strip of a tape -/

/-- The tape has a cell under a head that is on the filled cells or right behind them. -/
theorem getElem?_tapeCells {tape : List Json} {n : Nat} (hn : n ≤ tape.length) :
    (tapeCells tape n)[n]? = some (tape[n]?.getD (.str "_")) := by
  cases tape with
  | nil =>
    obtain rfl : n = 0 := Nat.le_zero.1 hn
    rfl
  | cons v tape =>
    rw [tapeCells]
    rcases Nat.lt_or_ge n (v :: tape).length with hlt | hge
    · have hinside : ¬((v :: tape).length : Int) ≤ n := by omega
      simp only [List.isEmpty_cons, Bool.false_eq_true, if_false, if_neg hinside,
        List.getElem?_eq_getElem hlt, Option.getD_some]
    · obtain rfl : n = (v :: tape).length := Nat.le_antisymm hn hge
      simp

/-- The strip of a machine has a heading, the cells and the marker. -/
theorem draw_of_tm {c : Contents} (htm : c.formalism = .tm) :
    draw c = (heading margin "Fita:" :: rowItems margin (tapeCells c.tape c.head) ++
      [marker margin c.head], none) := by
  simp [draw, htm, cellsLeft]

/-- What is no heading is a part of the row of cells, or the marker. -/
theorem filter_draw_of_tm {c : Contents} (htm : c.formalism = .tm) {p : Item Int → Bool}
    (hheading : p (heading margin "Fita:") = false) :
    (draw c).1.filter p =
      (rowItems margin (tapeCells c.tape c.head)).filter p ++ [marker margin c.head].filter p := by
  rw [draw_of_tm htm, List.filter_append, List.filter_cons, hheading]
  rfl

/-- The marker of a tape stands in the column of the head. -/
theorem markedAt_of_tm {c : Contents} (htm : c.formalism = .tm) {n : Nat} (hn : c.head = n) :
    MarkedAt (draw c).1 (middle n) := by
  refine ⟨marker margin n, ?_, rfl⟩
  rw [filter_draw_of_tm htm rfl, filter_isMarker_rowItems, hn]
  rfl

/-- The frames of a column are those of its row. -/
theorem filter_isFrameAt_of_tm {c : Contents} (htm : c.formalism = .tm) {n : Nat} :
    (draw c).1.filter (isFrameAt (middle n)) =
      (((tapeCells c.tape c.head).take shownCells)[n]?.map fun _ => frameItem n).toList := by
  have hmarker : [marker margin c.head].filter (isFrameAt (middle n)) = [] := rfl
  rw [filter_draw_of_tm htm rfl, filter_isFrameAt_rowItems, hmarker, List.append_nil]

/-- The symbols of a column are those of its row. -/
theorem filter_isSymbolAt_of_tm {c : Contents} (htm : c.formalism = .tm) {n : Nat} :
    (draw c).1.filter (isSymbolAt (middle n)) =
      (((tapeCells c.tape c.head).take shownCells)[n]?.map (symbolItem n)).toList := by
  have hheading : isSymbolAt (middle n) (heading margin "Fita:") = false := by
    simp [isSymbolAt, heading, labelTop, base, cellSize]
  have hmarker : [marker margin c.head].filter (isSymbolAt (middle n)) = [] := rfl
  rw [filter_draw_of_tm htm hheading, filter_isSymbolAt_rowItems, hmarker, List.append_nil]

/-- The cell under the head is shown with what the tape holds there. -/
theorem showsAt_of_tm {c : Contents} (htm : c.formalism = .tm) {n : Nat} (hn : c.head = n)
    (hsize : n ≤ c.tape.length) (hshown : n < shownCells) :
    ShowsAt (draw c).1 (middle n) (c.tape[n]?.getD (.str "_")) := by
  have hcell : ((tapeCells c.tape c.head).take shownCells)[n]? =
      some (c.tape[n]?.getD (.str "_")) := by
    rw [List.getElem?_take_of_lt hshown, hn, getElem?_tapeCells hsize]
  refine ⟨⟨frameItem n, ?_⟩, symbolItem n _, ?_, rfl⟩
  · rw [filter_isFrameAt_of_tm htm, hcell]
    rfl
  · rw [filter_isSymbolAt_of_tm htm, hcell]
    rfl

/-- Beyond the cells that are shown the marker stands over nothing. -/
theorem filter_isFrameAt_eq_nil {c : Contents} (htm : c.formalism = .tm) {n : Nat}
    (hshown : shownCells ≤ n) : (draw c).1.filter (isFrameAt (middle n)) = [] := by
  have hnone : ((tapeCells c.tape c.head).take shownCells)[n]? = none :=
    List.getElem?_eq_none (Nat.le_trans (List.length_take_le _ _) hshown)
  rw [filter_isFrameAt_of_tm htm, hnone]
  rfl

end MemoryStrip

/-! ## What is under the head -/

namespace Window

/-- The value that the tape holds under the head. -/
def underHead (w : Window) (e : Engine) : Json :=
  (tapeCells w.foreign e)[e.config.head.toNat]?.getD (.str e.config.tape.blank)

variable {d : Desk Window} {laid : Prop}

/-- A tape that is not filled with another value holds what the machine scans. -/
theorem underHead_of_own_tape (hown : d.outside.foreign.bind ForeignInput.cells = none)
    (h : d.engine.config.OnCells) :
    d.outside.underHead d.engine = .str d.engine.config.scanned := by
  obtain ⟨n, hn⟩ := Int.eq_ofNat_of_zero_le h.nonneg
  simp only [underHead, tapeCells, hown, Option.getD_none, hn, Int.toNat_natCast,
    List.getElem?_map, Configuration.scanned, Tape.read_ofNat]
  cases d.engine.config.tape.cells[n]? <;> rfl

/-- What a transition would have to read is under the head, whatever the tape is filled with. -/
theorem visible?_underHead (h : d.Kept laid) (htm : d.engine.automaton.formalism = .tm)
    {f : ForeignInput} (hf : d.outside.foreign = some f) :
    visible? f d.engine = .ok (d.outside.underHead d.engine).str? := by
  rw [visible?, if_pos htm]
  cases hcells : f.cells with
  | none =>
    rw [underHead_of_own_tape (by simpa [hf] using hcells) h.onCells]
    rfl
  | some cells =>
    obtain ⟨hhead, htape⟩ := h.filled (by simp [hf, hcells])
    have hscanned : d.engine.config.scanned = d.engine.config.tape.blank := by
      rw [Configuration.scanned, hhead]
      exact Tape.read_of_size_le (by simp [Tape.size, htape])
    simp only [underHead, tapeCells, hf, Option.bind_some, hcells, Option.getD_some, hhead,
      Int.toNat_zero, Option.map_some]
    cases cells[0]? with
    | some cell => rfl
    | none => rw [Option.getD_none, hscanned]; rfl

/-- The head is at most right behind the cells that are drawn. -/
theorem head_le_length_tapeCells (h : d.Kept laid) :
    d.engine.config.head ≤ (tapeCells d.outside.foreign d.engine).length := by
  rw [tapeCells]
  cases hcells : d.outside.foreign.bind ForeignInput.cells with
  | none => simpa [Tape.size] using h.onCells.le_size
  | some cells =>
    rw [(h.filled (by simp [hcells])).1]
    exact Int.natCast_nonneg _

end Window

/-- A transition of a Turing machine that is taken reads what the machine scans. -/
theorem label_of_take {a : Automaton} {c : Configuration} {t : Transition} (ha : a.Typed)
    (htm : a.formalism = .tm) (h : c.decision a = .ok (.take t)) :
    ∃ write direction, t.label = .tm c.scanned write direction := by
  rw [decision_of_tm ha htm] at h
  split at h
  · cases h
  · cases hfirst : c.firstEligible? a c.scanned with
    | none =>
      rw [hfirst] at h
      cases h
    | some u =>
      rw [hfirst] at h
      obtain rfl := Decision.take.inj (Except.ok.inj h)
      have hlabel := (ha.labels u (Configuration.mem_of_firstEligible? hfirst)).trans htm
      rcases Configuration.eligible_of_firstEligible? hfirst with heligible | ⟨hpda, -⟩
      · have hreads := (Bool.and_eq_true_iff.1 heligible).2
        cases hl : u.label with
        | tm read write direction =>
          rw [hl] at hreads
          exact ⟨write, direction, by rw [beq_iff_eq.1 hreads]⟩
        | _ => simp [hl, Label.formalism] at hlabel
      · simp [htm] at hpda

/-- Whatever has happened at a desktop : the marker of a tape stands in the column of the head, over
a cell with what the tape holds there, if so many cells are shown, and else over nothing. If the
input is a text, that is the symbol which the transition reads that is taken next; otherwise it is
the value that a transition would have to read. -/
theorem marker_over_head {files : FileStore} {canvasSize : Option (Int × Int)}
    {rule : EntryRule} {hs : List Happening} {k : Nat} {d : Desk Window}
    (hd : ((Desktop.empty files canvasSize rule).nextAll hs).windows[k]? = some d)
    (htm : d.engine.automaton.formalism = .tm) :
    let drawn := (d.outside.drawMemory d.engine).2.memory
    let v := d.outside.underHead d.engine
    (d.outside.drawMemory d.engine).1 = .ok () ∧
      ∃ n : Nat, d.engine.config.head = n ∧
        MemoryStrip.MarkedAt drawn (MemoryStrip.middle n) ∧
        (n < MemoryStrip.shownCells → MemoryStrip.ShowsAt drawn (MemoryStrip.middle n) v) ∧
        (MemoryStrip.shownCells ≤ n →
          drawn.filter (MemoryStrip.isFrameAt (MemoryStrip.middle n)) = []) ∧
        (d.outside.foreign = none → v = .str d.engine.config.scanned ∧
          ∀ t, d.engine.config.decision d.engine.automaton = .ok (.take t) →
            ∃ write direction, t.label = .tm d.engine.config.scanned write direction) ∧
        ∀ f, d.outside.foreign = some f → Window.visible? f d.engine = .ok v.str? := by
  intro drawn v
  have hkept : (((Desktop.empty files canvasSize rule).nextAll hs).lend d).Kept False :=
    Desktop.kept_of_happenings False.elim k d hd
  have hcells : d.engine.config.OnCells := hkept.onCells
  have hle : d.engine.config.head ≤ (Window.tapeCells d.outside.foreign d.engine).length :=
    Window.head_le_length_tapeCells (d := Desktop.lend _ d) hkept
  obtain ⟨n, hn⟩ := Int.eq_ofNat_of_zero_le hcells.nonneg
  have hsize : n ≤ (Window.tapeCells d.outside.foreign d.engine).length := by omega
  have hv : v = (Window.tapeCells d.outside.foreign d.engine)[n]?.getD (.str "_") := by
    simp only [v, Window.underHead, hn, Int.toNat_natCast, hcells.blank]
    rfl
  have hcontents : (d.outside.memoryContents d.engine).formalism = .tm := htm
  refine ⟨?_, n, hn, MemoryStrip.markedAt_of_tm hcontents hn, fun hshown => ?_,
    MemoryStrip.filter_isFrameAt_eq_nil hcontents, fun hforeign => ⟨?_, fun t => ?_⟩,
    fun f => Window.visible?_underHead (d := Desktop.lend _ d) hkept htm⟩
  · rw [Window.drawMemory, MemoryStrip.draw_of_tm hcontents]
    rfl
  · rw [hv]
    exact MemoryStrip.showsAt_of_tm hcontents hn hsize hshown
  · exact Window.underHead_of_own_tape (by simp [hforeign]) hcells
  · exact label_of_take hkept.typed.1 htm

/-- Two steps of a run on `1011` : the marker stands over the second cell, which holds the symbol
that the transition reads which is taken next. -/
theorem marker_over_head_binaryIncrement :
    let hs : List Happening := [.openWindow .tm, .command 0 (.click 0), .timer 1]
    ∃ d, ((Desktop.empty ⟨[]⟩ none).nextAll hs).windows[0]? = some d ∧
      d.engine.automaton.formalism = .tm ∧ d.outside.foreign = none ∧
      MemoryStrip.MarkedAt (d.outside.drawMemory d.engine).2.memory (MemoryStrip.middle 1) ∧
      MemoryStrip.ShowsAt (d.outside.drawMemory d.engine).2.memory (MemoryStrip.middle 1)
        (.str "0") ∧
      (d.engine.config.decision d.engine.automaton).toOption =
        some (.take ⟨"q0", "q0", .tm "0" "0" "R"⟩) := by
  intro hs
  have hstate : (((Desktop.empty ⟨[]⟩ none).nextAll hs).windows[0]?.map fun d =>
      (d.engine.automaton, d.outside.foreign.isNone, d.engine.config.head,
        d.engine.config.scanned, (d.engine.config.decision d.engine.automaton).toOption)) =
      some (Catalog.binaryIncrement.automaton, true, 1, Text.ofString "0",
        some (.take ⟨"q0", "q0", .tm "0" "0" "R"⟩)) := by
    decide +kernel
  obtain ⟨d, hd, hshown⟩ := Option.map_eq_some_iff.1 hstate
  simp only [Prod.mk.injEq, Option.isNone_iff_eq_none] at hshown
  obtain ⟨hautomaton, hforeign, hhead, hscanned, hdecision⟩ := hshown
  have htm : d.engine.automaton.formalism = .tm := by rw [hautomaton]; rfl
  obtain ⟨-, n, hn, hmarked, hshows, -, hown, -⟩ := marker_over_head hd htm
  obtain rfl : n = 1 := by omega
  have hsymbol := hshows (by decide)
  rw [(hown hforeign).1, hscanned] at hsymbol
  exact ⟨d, hd, htm, hforeign, hmarked, hsymbol, hdecision⟩

/-- The marker may stand over nothing : behind twenty-four symbols a machine reads a cell that is not
drawn. -/
theorem marker_over_nothing :
    let entered : Text := .ofChars (List.replicate 24 '1')
    let hs : List Happening := [.openWindow .tm, .command 0 (.enterText entered),
      .command 0 (.click 0)] ++ (List.range 46).map fun i => .timer (i + 1)
    ∃ d, ((Desktop.empty ⟨[]⟩ none).nextAll hs).windows[0]? = some d ∧
      d.engine.automaton = Catalog.binaryIncrement.automaton ∧ d.outside.foreign = none ∧
      MemoryStrip.MarkedAt (d.outside.drawMemory d.engine).2.memory (MemoryStrip.middle 24) ∧
      (d.outside.drawMemory d.engine).2.memory.filter
        (MemoryStrip.isFrameAt (MemoryStrip.middle 24)) = [] ∧
      (d.engine.config.decision d.engine.automaton).toOption =
        some (.take ⟨"q0", "q1", .tm "_" "_" "L"⟩) := by
  intro entered hs
  have hstate : (((Desktop.empty ⟨[]⟩ none).nextAll hs).windows[0]?.map fun d =>
      (d.engine.automaton, d.outside.foreign.isNone, d.engine.config.head,
        (d.engine.config.decision d.engine.automaton).toOption)) =
      some (Catalog.binaryIncrement.automaton, true, 24,
        some (.take ⟨"q0", "q1", .tm "_" "_" "L"⟩)) := by
    decide +kernel
  obtain ⟨d, hd, hshown⟩ := Option.map_eq_some_iff.1 hstate
  simp only [Prod.mk.injEq, Option.isNone_iff_eq_none] at hshown
  obtain ⟨hautomaton, hforeign, hhead, hdecision⟩ := hshown
  have htm : (d.outside.memoryContents d.engine).formalism = .tm :=
    (congrArg Automaton.formalism hautomaton :)
  exact ⟨d, hd, hautomaton, hforeign, MemoryStrip.markedAt_of_tm htm hhead,
    MemoryStrip.filter_isFrameAt_eq_nil htm (Nat.le_refl 24), hdecision⟩

end AutomatonLab
