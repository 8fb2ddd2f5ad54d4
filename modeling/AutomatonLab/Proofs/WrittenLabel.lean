import AutomatonLab.Label.Parser
import Mathlib.Data.List.DropRight

/-!
# Labels and their written forms

A written form is cut into parts at separators that the parts may hold as well : a pushdown label at
its first arrow and at the only comma before it (`Label.parsePda_eq_ok_iff`), a Turing label at its
first arrow and at its last comma (`Label.parseTm_eq_ok_iff`). Before the cut the arrow takes the
place of its two characters, and nothing is left of them (`Label.not_infix_arrowed`); after the cut
a part loses the blanks at its ends.

What is known of the parts then is all that is needed to find them again in the written form
(`Label.Legible`, `Label.parse_text_of_legible`). So a label is read back from its written form
exactly if it was read from some text (`parse_text_iff_legible`).
-/

namespace AutomatonLab

namespace Text

/-- There is no blank at either end of the text. -/
structure Trimmed (t : Text) : Prop where
  head : ∀ c ∈ t.head?, isBlank c = false
  last : ∀ c ∈ t.getLast?, isBlank c = false

variable {p : CodePoint → Bool} {t : Text}

theorem stripEnds_infix (p : CodePoint → Bool) (t : Text) : stripEnds p t <:+: t := by
  have hfront : t.dropWhile p <:+ t := List.dropWhile_suffix p
  exact (List.rdropWhile_prefix p _).isInfix.trans hfront.isInfix

/-- A stripped text is trimmed. -/
theorem trimmed_stripEnds (t : Text) : (stripEnds isBlank t).Trimmed := by
  change Trimmed ((t.dropWhile isBlank).rdropWhile isBlank)
  constructor
  · intro c hc
    obtain ⟨rest, hrest⟩ := List.rdropWhile_prefix isBlank (t.dropWhile isBlank)
    have hhead : (t.dropWhile isBlank).head? = some c := by
      rw [← hrest, List.head?_append, hc]
      rfl
    simpa [hhead] using List.head?_dropWhile_not isBlank t
  · intro c hc
    have hne : (t.dropWhile isBlank).rdropWhile isBlank ≠ [] := by
      rintro hnil
      simp [hnil] at hc
    rw [List.getLast?_eq_some_getLast hne] at hc
    simpa [← Option.some.inj hc] using List.rdropWhile_last_not isBlank _ hne

theorem Trimmed.stripEnds_eq (h : t.Trimmed) : stripEnds isBlank t = t := by
  have hfront : t.dropWhile isBlank = t := by
    cases t with
    | nil => rfl
    | cons c rest => exact List.dropWhile_cons_of_neg (by simp [h.head c rfl])
  change (t.dropWhile isBlank).rdropWhile isBlank = t
  rw [hfront, List.rdropWhile_eq_self_iff]
  intro hne
  simp [h.last _ (List.getLast?_eq_some_getLast hne)]

end Text

namespace Label

variable {c : CodePoint} {cs a b p : Text}

/-! ## Arrows -/

theorem arrowed_cons_of_ne (h : c ≠ '-') (cs : Text) : arrowed (c :: cs) = c :: arrowed cs := by
  rw [arrowed]
  rintro rest rfl
  simp at h

/-- A text that begins with the point of an arrow has done so before its arrows were written out. -/
theorem head_arrowed (h : (arrowed cs).head? = some (.char '>')) : cs.head? = some (.char '>') := by
  fun_cases arrowed cs with
  | case1 => cases h
  | case2 rest => simp [arrowed, arrow] at h
  | case3 c rest hne =>
    rw [arrowed] at h
    · simpa using h
    · exact hne

/-- An arrow in a text is at its beginning or further on. -/
theorem asciiArrow_infix_cons_iff : asciiArrow <:+: c :: cs ↔
    (c = .char '-' ∧ cs.head? = some (.char '>')) ∨ asciiArrow <:+: cs := by
  rw [List.infix_cons_iff]
  refine or_congr_left ?_
  rw [show asciiArrow = [.char '-', .char '>'] from rfl, List.cons_prefix_cons]
  cases cs with
  | nil => simp
  | cons d rest => simp [List.cons_prefix_cons, eq_comm]

/-- Nothing is left of the two characters once they have been replaced. -/
theorem not_infix_arrowed (cs : Text) : ¬asciiArrow <:+: arrowed cs := by
  fun_induction arrowed cs with
  | case1 => simp [asciiArrow, Text.ofString, Text.ofChars]
  | case2 rest ih =>
    rw [asciiArrow_infix_cons_iff]
    rintro (⟨harrow, -⟩ | h)
    · cases harrow
    · exact ih h
  | case3 c rest hne ih =>
    rw [asciiArrow_infix_cons_iff]
    rintro (⟨rfl, hhead⟩ | h)
    · obtain ⟨rest', rfl⟩ := List.head?_eq_some_iff.1 (head_arrowed hhead)
      exact hne rest' rfl rfl
    · exact ih h

/-- A text without arrows stays as it is. -/
theorem arrowed_eq_self (h : ¬asciiArrow <:+: cs) : arrowed cs = cs := by
  fun_induction arrowed cs with
  | case1 => rfl
  | case2 rest => exact absurd (asciiArrow_infix_cons_iff.2 (Or.inl ⟨rfl, rfl⟩)) h
  | case3 c rest hne ih => rw [ih fun hrest => h (asciiArrow_infix_cons_iff.2 (Or.inr hrest))]

/-- A character that is not of the two stays where it is. -/
theorem arrowed_append_cons (hdash : c ≠ '-') (hhead : c ≠ '>') (a b : Text) :
    arrowed (a ++ c :: b) = arrowed a ++ c :: arrowed b := by
  fun_induction arrowed a with
  | case1 => exact arrowed_cons_of_ne hdash b
  | case2 rest ih => simp only [List.cons_append, arrowed, ih]
  | case3 d rest hne ih =>
    rw [List.cons_append, arrowed, ih]
    · rfl
    · -- the two characters do not come about where the texts meet
      rintro rest' rfl hrest
      cases rest with
      | nil =>
        obtain ⟨rfl, -⟩ := List.cons.inj hrest
        exact hhead rfl
      | cons e rest =>
        obtain ⟨rfl, -⟩ := List.cons.inj hrest
        exact hne rest rfl rfl

/-! ## Cuts -/

/-- A text is cut at the first of its separators. -/
theorem cutFirst_append (h : c ∉ a) (b : Text) : cutFirst c (a ++ c :: b) = (a, b) := by
  have hbefore : ∀ d ∈ a, (d != c) = true := fun d hd => by
    simpa using fun heq : d = c => h (heq ▸ hd)
  simp [cutFirst, List.takeWhile_append_of_pos hbefore, List.dropWhile_append_of_pos hbefore]

/-- A cut at the first separator is undone by joining, and there is one such cut. -/
theorem cutFirst_eq_iff (h : c ∈ cs) : cutFirst c cs = (a, b) ↔ cs = a ++ c :: b ∧ c ∉ a := by
  constructor
  · intro hcut
    obtain ⟨a', b', rfl, ha'⟩ := List.eq_append_cons_of_mem h
    rw [cutFirst_append ha'] at hcut
    obtain ⟨rfl, rfl⟩ := Prod.mk.inj hcut
    exact ⟨rfl, ha'⟩
  · rintro ⟨rfl, ha⟩
    exact cutFirst_append ha b

/-- A cut at the last separator is undone by joining, and there is one such cut. -/
theorem cutLast_eq_iff (h : c ∈ cs) : cutLast c cs = (a, b) ↔ cs = a ++ c :: b ∧ c ∉ b := by
  have hcut : cutLast c cs = (a, b) ↔ cutFirst c cs.reverse = (b.reverse, a.reverse) := by
    simp only [cutLast, Prod.ext_iff, List.reverse_eq_iff]
    exact and_comm
  rw [hcut, cutFirst_eq_iff (List.mem_reverse.2 h), List.reverse_eq_iff]
  simp

/-- A text in one piece has no separator. -/
theorem not_mem_of_length_splitOn (h : (cs.splitOn c).length = 1) : c ∉ cs := by
  intro hc
  obtain ⟨a, b, rfl, -⟩ := List.eq_append_cons_of_mem hc
  have ha := List.length_pos_iff.2 (List.splitOn_ne_nil c a)
  have hb := List.length_pos_iff.2 (List.splitOn_ne_nil c b)
  rw [List.splitOn_append_cons_self, List.length_append] at h
  omega

/-- A text is cut in two at its only comma. -/
theorem splitOn_eq_pair_iff : cs.splitOn c = [a, b] ↔ cs = a ++ c :: b ∧ c ∉ a ∧ c ∉ b := by
  constructor
  · intro hsplit
    have hjoin : [c].intercalate (cs.splitOn c) = cs := List.intercalate_splitOn c
    obtain rfl : a ++ c :: b = cs := by simpa [hsplit, List.intercalate] using hjoin
    -- each side of the comma has at least one piece, and there are two in all
    rw [List.splitOn_append_cons_self] at hsplit
    have hlength := congrArg List.length hsplit
    have ha := List.length_pos_iff.2 (List.splitOn_ne_nil c a)
    have hb := List.length_pos_iff.2 (List.splitOn_ne_nil c b)
    simp only [List.length_append, List.length_cons, List.length_nil] at hlength
    exact ⟨rfl, not_mem_of_length_splitOn (by omega), not_mem_of_length_splitOn (by omega)⟩
  · rintro ⟨rfl, ha, hb⟩
    rw [List.splitOn_append_cons_self_of_not_mem ha, List.splitOn_eq_singleton hb]

/-! ## Parts -/

/-- A part that is read as it stands : there is something in it, no blank at its ends, and nowhere
the two characters that stand for the arrow. -/
structure Solid (p : Text) : Prop where
  nonempty : p ≠ []
  trimmed : p.Trimmed
  noArrow : ¬asciiArrow <:+: p

/-- A part without arrows that is not empty is solid. -/
theorem solid_part (hne : part cs ≠ []) (h : ¬asciiArrow <:+: cs) : Solid (part cs) where
  nonempty := hne
  trimmed := Text.trimmed_stripEnds cs
  noArrow harrow := h (harrow.trans (Text.stripEnds_infix _ cs))

/-- A solid part is read as it is. -/
theorem Solid.part_eq (h : Solid p) : part p = p :=
  h.trimmed.stripEnds_eq

theorem not_mem_part (h : c ∉ cs) : c ∉ part cs := fun hc =>
  h ((Text.stripEnds_infix _ cs).subset hc)

/-- The sign for the empty word is solid, and not the other sign for it. -/
theorem solid_epsilon : Solid epsilon ∧ epsilon ≠ "&" := by
  refine ⟨⟨nofun, ⟨?_, ?_⟩, by decide⟩, by decide⟩
  · rintro c ⟨⟩; rfl
  · rintro c ⟨⟩; rfl

/-- An optional part that was read is solid. -/
theorem solid_optionalPart (h : ¬asciiArrow <:+: cs) :
    Solid (optionalPart cs) ∧ optionalPart cs ≠ "&" := by
  rw [optionalPart]
  split
  case isTrue => exact solid_epsilon
  case isFalse hp =>
    simp only [epsilonAliases, List.mem_cons, not_or] at hp
    exact ⟨solid_part hp.1 h, hp.2.1⟩

theorem Solid.optionalPart_eq (h : Solid p) (hp : p ≠ "&") : optionalPart p = p := by
  rw [optionalPart, h.part_eq]
  split
  case isTrue hmem =>
    simp only [epsilonAliases, List.mem_cons, List.not_mem_nil, or_false] at hmem
    rcases hmem with hnil | hamp | hepsilon
    · exact absurd hnil h.nonempty
    · exact absurd hamp hp
    · exact hepsilon.symm
  case isFalse => rfl

theorem not_mem_optionalPart (h : c ∉ cs) (hc : c ∉ epsilon) : c ∉ optionalPart cs := by
  rw [optionalPart]
  split
  · exact hc
  · exact not_mem_part h

/-! ## What the readers accept -/

/-- A pushdown label is cut at its first arrow and at the only comma before that. -/
theorem parsePda_eq_ok_iff {text : Text} {l : Label} : parsePda text = .ok l ↔
    ∃ input pop push, arrowed text = (input ++ .char ',' :: pop) ++ arrow :: push ∧
      arrow ∉ input ++ .char ',' :: pop ∧ (.char ',' ∉ input ∧ .char ',' ∉ pop) ∧
      l = .pda (optionalPart input) (optionalPart pop) (optionalPart push) := by
  simp only [parsePda]
  generalize arrowed text = cs
  split
  case isFalse harrow =>
    refine ⟨nofun, ?_⟩
    rintro ⟨input, pop, push, rfl, -⟩
    simp at harrow
  case isTrue harrow =>
    rcases hcut : cutFirst arrow cs with ⟨reading, push⟩
    obtain ⟨rfl, hreading⟩ := (cutFirst_eq_iff harrow).1 hcut
    simp only
    constructor
    · intro h
      split at h
      case h_1 input pop hsplit =>
        obtain ⟨rfl, hcomma⟩ := splitOn_eq_pair_iff.1 hsplit
        exact ⟨input, pop, push, rfl, hreading, hcomma, (Except.ok.inj h).symm⟩
      case h_2 => cases h
    · rintro ⟨input, pop, push', hcs, hleft, hcomma, rfl⟩
      rw [hcs, cutFirst_append hleft] at hcut
      obtain ⟨rfl, rfl⟩ := Prod.mk.inj hcut
      rw [splitOn_eq_pair_iff.2 ⟨rfl, hcomma⟩]

/-- A Turing label is cut at its first arrow and at the last comma. -/
theorem parseTm_eq_ok_iff {text : Text} {l : Label} : parseTm text = .ok l ↔
    ∃ read write direction d,
      arrowed text = read ++ arrow :: (write ++ .char ',' :: direction) ∧
      arrow ∉ read ∧ .char ',' ∉ direction ∧ (part read ≠ [] ∧ part write ≠ []) ∧
      directions.lookup (Text.upperCase (part direction)) = some d ∧
      l = .tm (part read) (part write) d := by
  simp only [parseTm]
  generalize arrowed text = cs
  split
  case isFalse harrow =>
    refine ⟨nofun, ?_⟩
    rintro ⟨read, write, direction, d, rfl, -⟩
    simp at harrow
  case isTrue harrow =>
    rcases hcut : cutFirst arrow cs with ⟨read, rest⟩
    obtain ⟨rfl, hread⟩ := (cutFirst_eq_iff harrow).1 hcut
    simp only
    split
    case isFalse hcomma =>
      refine ⟨nofun, ?_⟩
      rintro ⟨read', write, direction, d, hcs, hread', -⟩
      rw [hcs, cutFirst_append hread'] at hcut
      obtain ⟨rfl, rfl⟩ := Prod.mk.inj hcut
      simp at hcomma
    case isTrue hcomma =>
      rcases hlast : cutLast (.char ',') rest with ⟨write, direction⟩
      obtain ⟨rfl, hdirection⟩ := (cutLast_eq_iff hcomma).1 hlast
      simp only [List.isEmpty_iff]
      constructor
      · intro h
        split at h
        case isTrue => cases h
        case isFalse hparts =>
          rw [not_or] at hparts
          split at h
          case h_1 d hd =>
            exact ⟨read, write, direction, d, rfl, hread, hdirection, hparts, hd,
              (Except.ok.inj h).symm⟩
          case h_2 => cases h
      · rintro ⟨read', write', direction', d, hcs, hread', hdirection', hparts, hd, rfl⟩
        rw [hcs, cutFirst_append hread'] at hcut
        obtain ⟨rfl, hrest⟩ := Prod.mk.inj hcut
        rw [← hrest, (cutLast_eq_iff (by simp)).2 ⟨rfl, hdirection'⟩] at hlast
        obtain ⟨rfl, rfl⟩ := Prod.mk.inj hlast
        rw [if_neg (not_or.2 hparts), hd]

/-! ## Legible labels -/

/-- The parts of the label can be found in its written form. A pushdown label has no comma and no
arrow before its arrow, and `&` is none of its parts; a Turing label has no arrow before its arrow,
and moves in one of the three directions. -/
def Legible : Label → Prop
  | fa symbol => symbol ≠ []
  | pda input pop push =>
    (∀ p ∈ [input, pop, push], Solid p ∧ p ≠ "&") ∧
      ∀ p ∈ [input, pop], .char ',' ∉ p ∧ arrow ∉ p
  | tm read write direction =>
    (∀ p ∈ [read, write], Solid p) ∧ arrow ∉ read ∧ direction ∈ [left, right, stay]

variable {f : Formalism} {text : Text} {l : Label}

/-- A label is read as one of the formalism asked for. -/
theorem formalism_of_parse (h : parse f text = .ok l) : l.formalism = f := by
  cases f with
  | fa =>
    rw [parse, parseFa] at h
    split at h
    · cases h
    · rw [← Except.ok.inj h]
      rfl
  | pda =>
    obtain ⟨input, pop, push, -, -, -, rfl⟩ := parsePda_eq_ok_iff.1 h
    rfl
  | tm =>
    obtain ⟨read, write, direction, d, -, -, -, -, -, rfl⟩ := parseTm_eq_ok_iff.1 h
    rfl
  | other code => cases h

/-- No part that is cut out of a text has the arrow in its two characters. -/
theorem not_infix_of_arrowed (h : p <:+: arrowed text) : ¬asciiArrow <:+: p := fun harrow =>
  not_infix_arrowed text (harrow.trans h)

/-- What is read as a label of a pushdown automaton is legible. -/
theorem legible_of_parsePda (h : parsePda text = .ok l) : l.Legible := by
  obtain ⟨input, pop, push, hcs, harrow, ⟨hinput, hpop⟩, rfl⟩ := parsePda_eq_ok_iff.1 h
  rw [List.mem_append, List.mem_cons, not_or, not_or] at harrow
  have hparts : input <:+: arrowed text ∧ pop <:+: arrowed text ∧ push <:+: arrowed text :=
    ⟨⟨[], .char ',' :: pop ++ arrow :: push, by simp [hcs]⟩,
      ⟨input ++ [.char ','], arrow :: push, by simp [hcs]⟩,
      ⟨input ++ .char ',' :: pop ++ [arrow], [], by simp [hcs]⟩⟩
  simp only [Legible, List.forall_mem_cons, List.not_mem_nil, false_implies, implies_true,
    and_true]
  refine ⟨⟨?_, ?_, ?_⟩, ⟨?_, ?_⟩, ?_, ?_⟩
  · exact solid_optionalPart (not_infix_of_arrowed hparts.1)
  · exact solid_optionalPart (not_infix_of_arrowed hparts.2.1)
  · exact solid_optionalPart (not_infix_of_arrowed hparts.2.2)
  · exact not_mem_optionalPart hinput (by decide)
  · exact not_mem_optionalPart harrow.1 (by decide)
  · exact not_mem_optionalPart hpop (by decide)
  · exact not_mem_optionalPart harrow.2.2 (by decide)

theorem mem_of_lookup_directions {u d : Text} (h : directions.lookup u = some d) :
    d ∈ [left, right, stay] := by
  obtain ⟨before, after, hsplit, -⟩ := List.lookup_eq_some_iff.1 h
  have hmem : (u, d) ∈ directions := by
    rw [hsplit]
    exact List.mem_append_right _ List.mem_cons_self
  simp only [directions, List.mem_cons, Prod.mk.injEq, List.not_mem_nil, or_false] at hmem ⊢
  rcases hmem with ⟨-, hd⟩ | ⟨-, hd⟩ | ⟨-, hd⟩ | ⟨-, hd⟩
  · exact Or.inl hd
  · exact Or.inr (Or.inl hd)
  · exact Or.inr (Or.inr hd)
  · exact Or.inr (Or.inr hd)

theorem lookup_directions {d : Text} (h : d ∈ [left, right, stay]) :
    directions.lookup (Text.upperCase (part d)) = some d := by
  simp only [List.mem_cons, List.not_mem_nil, or_false] at h
  rcases h with rfl | rfl | rfl <;> rfl

/-- What is read as a label of a Turing machine is legible. -/
theorem legible_of_parseTm (h : parseTm text = .ok l) : l.Legible := by
  obtain ⟨read, write, direction, d, hcs, harrow, -, ⟨hread, hwrite⟩, hd, rfl⟩ :=
    parseTm_eq_ok_iff.1 h
  have hparts : read <:+: arrowed text ∧ write <:+: arrowed text :=
    ⟨⟨[], arrow :: (write ++ .char ',' :: direction), by simp [hcs]⟩,
      ⟨read ++ [arrow], .char ',' :: direction, by simp [hcs]⟩⟩
  simp only [Legible, List.forall_mem_cons, List.not_mem_nil, false_implies, implies_true,
    and_true]
  exact ⟨⟨solid_part hread (not_infix_of_arrowed hparts.1),
    solid_part hwrite (not_infix_of_arrowed hparts.2)⟩, not_mem_part harrow,
    mem_of_lookup_directions hd⟩

/-- Whatever is read as a label is legible. -/
theorem legible_of_parse (h : parse f text = .ok l) : l.Legible := by
  cases f with
  | fa =>
    rw [parse, parseFa] at h
    split at h
    case isTrue => cases h
    case isFalse hne =>
      rw [← Except.ok.inj h]
      simpa [Legible] using hne
  | pda => exact legible_of_parsePda h
  | tm => exact legible_of_parseTm h
  | other code => cases h

/-- A legible label is read back from its text. -/
theorem parse_text_of_legible (h : l.Legible) : parse l.formalism l.text = .ok l := by
  cases l with
  | fa symbol =>
    have hne : symbol ≠ [] := h
    simp [parse, parseFa, formalism, text, hne]
  | pda input pop push =>
    obtain ⟨hsolid, hfree⟩ := h
    simp only [List.forall_mem_cons, List.not_mem_nil, false_implies, implies_true, and_true]
      at hsolid hfree
    obtain ⟨⟨hinput, hinput'⟩, ⟨hpop, hpop'⟩, hpush, hpush'⟩ := hsolid
    obtain ⟨⟨hcomma, harrow⟩, hcomma', harrow'⟩ := hfree
    have htext : (pda input pop push).text = input ++ .char ',' :: (pop ++ arrow :: push) := by
      simp [text, Text.ofString, Text.ofChars]
    refine parsePda_eq_ok_iff.2 ⟨input, pop, push, ?_, ?_, ⟨hcomma, hcomma'⟩, ?_⟩
    · rw [htext, arrowed_append_cons (by decide) (by decide),
        arrowed_append_cons (by decide) (by decide), arrowed_eq_self hinput.noArrow,
        arrowed_eq_self hpop.noArrow, arrowed_eq_self hpush.noArrow]
      simp
    · simp only [List.mem_append, List.mem_cons, not_or]
      exact ⟨harrow, by decide, harrow'⟩
    · rw [hinput.optionalPart_eq hinput', hpop.optionalPart_eq hpop', hpush.optionalPart_eq hpush']
  | tm read write direction =>
    obtain ⟨hsolid, harrow, hdirection⟩ := h
    simp only [List.forall_mem_cons, List.not_mem_nil, false_implies, implies_true, and_true]
      at hsolid
    obtain ⟨hread, hwrite⟩ := hsolid
    have htext : (tm read write direction).text =
        read ++ arrow :: (write ++ .char ',' :: direction) := by
      simp [text, Text.ofString, Text.ofChars]
    have hletter : arrowed direction = direction ∧ .char ',' ∉ direction := by
      simp only [List.mem_cons, List.not_mem_nil, or_false] at hdirection
      rcases hdirection with rfl | rfl | rfl <;> exact ⟨rfl, by decide⟩
    refine parseTm_eq_ok_iff.2 ⟨read, write, direction, direction, ?_, harrow, hletter.2,
      ⟨?_, ?_⟩, lookup_directions hdirection, ?_⟩
    · rw [htext, arrowed_append_cons (by decide) (by decide),
        arrowed_append_cons (by decide) (by decide), arrowed_eq_self hread.noArrow,
        arrowed_eq_self hwrite.noArrow, hletter.1]
    · rw [hread.part_eq]
      exact hread.nonempty
    · rw [hwrite.part_eq]
      exact hwrite.nonempty
    · rw [hread.part_eq, hwrite.part_eq]

end Label

open Label in
/-- A label is read back from its written form exactly if it was read from some text, and these are
the legible ones. -/
theorem parse_text_iff_legible (f : Formalism) :
    (∀ text l, Label.parse f text = .ok l → Label.parse f l.text = .ok l) ∧
    ∀ l : Label, l.formalism = f →
      (Label.parse f l.text = .ok l ↔ ∃ text, Label.parse f text = .ok l) ∧
      ((∃ text, Label.parse f text = .ok l) ↔ l.Legible) := by
  have hback : ∀ text l, Label.parse f text = .ok l → Label.parse f l.text = .ok l := by
    intro text l h
    have := parse_text_of_legible (legible_of_parse h)
    rwa [formalism_of_parse h] at this
  refine ⟨hback, ?_⟩
  rintro l rfl
  exact ⟨⟨fun h => ⟨l.text, h⟩, fun ⟨text, h⟩ => hback text l h⟩,
    fun ⟨text, h⟩ => legible_of_parse h, fun h => ⟨l.text, parse_text_of_legible h⟩⟩

/-- The separators are read as they stand where they separate nothing. -/
theorem parse_text_iff_legible_separators :
    let l : Label := .pda "a" Label.epsilon "x,y→z"
    let m : Label := .tm "," "→,0" Label.stay
    Label.parse .pda " a,& -> x,y->z" = .ok l ∧ Label.parse .pda l.text = .ok l ∧
      m.formalism = .tm ∧ m.Legible ∧ Label.parse .tm m.text = .ok m := by
  intro l m
  have hl : Label.parse .pda " a,& -> x,y->z" = .ok l := rfl
  obtain ⟨-, hiff⟩ := parse_text_iff_legible .tm
  obtain ⟨hparse, hlegible⟩ := hiff m rfl
  exact ⟨hl, (parse_text_iff_legible .pda).1 _ l hl, rfl,
    hlegible.1 ⟨", → →,0,n", rfl⟩, hparse.2 ⟨", → →,0,n", rfl⟩⟩

end AutomatonLab
