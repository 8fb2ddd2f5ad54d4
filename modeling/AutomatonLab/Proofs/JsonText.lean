import AutomatonLab.Json.Reader
import AutomatonLab.Json.Writer
import Mathlib.Data.List.Forall2
import Mathlib.Tactic.IntervalCases

/-!
# What is written is read again

`Json.read` takes the text that `Json.write` gives for a value back to the value, if the value holds
no number, names no member of an object twice and is nested no deeper than the reader goes
(`Json.Wordy.read_write`). A code point is written as itself, as a short escape or as a code, and
each of them is read as the code point (`readWritten_writeCodePoint`, `readText_writeText`). For a
value the statement is stronger than the one about a whole text : the reader takes the value off the
front, whatever comes after it (`Json.Takes`, `Json.Wordy.takes`), which is what the arrays and the
objects around it need.
-/

namespace AutomatonLab.Json

/-! ## Texts -/

/-- What may be read for a code point : the code point itself, or the code of a control. -/
inductive Spells : Written → CodePoint → Prop
  | plain (c : CodePoint) : Spells (.plain c) c
  | code {c : CodePoint} (h : c.toNat < 0x20) : Spells (.code c) c

variable {opening rest s : Text} {c d : CodePoint}

/-- The four digits of a control character are read back. -/
theorem codePoint?_hexDigits {n : Nat} (h : n < 0x20) : ∃ a b c d : Char,
    Text.hexDigits 4 n = [a, b, c, d] ∧ codePoint? a b c d = some (.ofNat n) := by
  interval_cases n <;> exact ⟨_, _, _, _, rfl, rfl⟩

/-- A code point that needs no escape is read as it is. -/
theorem readWritten_plain (hquote : c ≠ '"') (hback : c ≠ '\\') (hcontrol : ¬c.toNat < 0x20) :
    readWritten opening (c :: rest) =
      (readWritten opening rest).map fun p => (.plain c :: p.1, p.2) := by
  rw [readWritten, if_neg hcontrol]
  · cases readWritten opening rest <;> rfl
  all_goals grind

/-- A short escape is read as the character it stands for. -/
theorem readWritten_escape (h : shortEscape? d = some c) :
    readWritten opening ('\\' :: d :: rest) =
      (readWritten opening rest).map fun p => (.plain c :: p.1, p.2) := by
  have hu : d ≠ 'u' := by rintro rfl; cases h
  rw [readWritten, h]
  · cases readWritten opening rest <;> rfl
  all_goals grind

/-- A long escape is read as the code point of its number. -/
theorem readWritten_code (h : c.toNat < 0x20) (hrest : rest ≠ []) :
    readWritten opening
        (Text.ofChars ('\\' :: 'u' :: Text.hexDigits 4 c.toNat) ++ rest) =
      (readWritten opening rest).map fun p => (.code c :: p.1, p.2) := by
  obtain ⟨w, x, y, z, hdigits, hcode⟩ := codePoint?_hexDigits h
  rw [CodePoint.ofNat_toNat] at hcode
  rw [hdigits]
  refine (readWritten.eq_6 opening _ _ _ _ rest c hrest hcode).trans ?_
  cases readWritten opening rest <;> rfl

/-- A code point that was written is read again. -/
theorem readWritten_writeCodePoint (c : CodePoint) (hrest : rest ≠ []) :
    ∃ u, Spells u c ∧ ∀ opening, readWritten opening (writeCodePoint c ++ rest) =
      (readWritten opening rest).map fun p => (u :: p.1, p.2) := by
  have hshort {d : CodePoint} (h : shortEscape? d = some c) :
      ∃ u, Spells u c ∧ ∀ opening, readWritten opening (([.char '\\', d] : Text) ++ rest) =
        (readWritten opening rest).map fun p => (u :: p.1, p.2) :=
    ⟨_, .plain c, fun _ => readWritten_escape h⟩
  unfold writeCodePoint
  split_ifs with hquote hback h3 h4 h5 h6 h7 hcontrol
  -- the seven short escapes come first, then the other controls, then what stands for itself
  iterate 7 exact hshort (by simp_all [shortEscape?])
  · exact ⟨_, .code hcontrol, fun _ => readWritten_code hcontrol hrest⟩
  · exact ⟨_, .plain c, fun _ =>
      readWritten_plain (by simpa using hquote) (by simpa using hback) hcontrol⟩

/-- What was written of a text is read up to the quote at its end. -/
theorem readWritten_flatMap (s rest : Text) :
    ∃ written, List.Forall₂ Spells written s ∧ ∀ opening,
      readWritten opening (s.flatMap writeCodePoint ++ CodePoint.char '"' :: rest) =
        .ok (written, rest) := by
  induction s with
  | nil => exact ⟨[], .nil, fun _ => readWritten.eq_2 _ _⟩
  | cons c s ih =>
    obtain ⟨written, hspells, hread⟩ := ih
    have hrest : s.flatMap writeCodePoint ++ CodePoint.char '"' :: rest ≠ [] := by simp
    obtain ⟨u, hu, hc⟩ := readWritten_writeCodePoint c hrest
    refine ⟨u :: written, .cons hu hspells, fun opening => ?_⟩
    rw [List.flatMap_cons, List.append_assoc, hc, hread]
    rfl

/-- A control character is no half of a pair. -/
theorem ofPair?_of_control (h : c.toNat < 0x20) (d : CodePoint) :
    CodePoint.ofPair? c d = none := by
  cases c with
  | char c => rfl
  | half n => simp only [CodePoint.toNat, CodePoint.halfBase] at h; omega

/-- A control is no half of a character, so that no two codes are joined to one character. -/
theorem joinWritten_of_spells {written : List Written} (h : List.Forall₂ Spells written s) :
    joinWritten written = s := by
  induction h with
  | nil => rfl
  | @cons u c written s hu h ih =>
    cases hu with
    | plain => rw [joinWritten, ih]
    | code hcontrol =>
      cases h with
      | nil => rfl
      | @cons v d written s hv h =>
        cases hv with
        | plain => simpa only [joinWritten, List.cons.injEq, true_and] using ih
        | code => rw [joinWritten, ofPair?_of_control hcontrol, ih]

/-- A text that was written is read back. -/
theorem readText_writeText (opening s rest : Text) :
    readText opening (s.flatMap writeCodePoint ++ CodePoint.char '"' :: rest) =
      .ok (s, rest) := by
  obtain ⟨written, hspells, hread⟩ := readWritten_flatMap s rest
  rw [readText, hread, ← joinWritten_of_spells hspells]
  rfl

/-! ## The text of a value -/

/-- The text of a value whose first line stands at `level`. -/
def textAt (level : Nat) (v : Json) : Text := (pieces level v).flatten

/-- The text of the items after the first one. -/
def itemsAt (level : Nat) (items : List Json) : Text := (itemPieces level items).flatten

/-- The text of the members after the first one. -/
def membersAt (level : Nat) (members : List (Text × Json)) : Text :=
  (memberPieces level members).flatten

variable {level : Nat} {v : Json} {items : List Json} {members : List (Text × Json)} {n : Text}

theorem textAt_str (level : Nat) (s : Text) : textAt level (.str s) = writeText s := by
  simp [textAt, pieces]

theorem textAt_arr_cons : textAt level (.arr (v :: items)) =
    .char '[' :: (newLine (level + 1) ++ (textAt (level + 1) v ++ (itemsAt (level + 1) items ++
      (newLine level ++ [.char ']'])))) := by
  simp [textAt, itemsAt, pieces, Text.ofString, Text.ofChars]

theorem textAt_obj_cons : textAt level (.obj ((n, v) :: members)) =
    .char '\x7b' :: (newLine (level + 1) ++ (writeText n ++ (.char ':' :: .char ' ' ::
      (textAt (level + 1) v ++ (membersAt (level + 1) members ++
        (newLine level ++ [.char '\x7d'])))))) := by
  simp [textAt, membersAt, pieces, Text.ofString, Text.ofChars]

theorem itemsAt_nil : itemsAt level [] = [] := rfl

theorem itemsAt_cons : itemsAt level (v :: items) =
    .char ',' :: (newLine level ++ (textAt level v ++ itemsAt level items)) := by
  simp [textAt, itemsAt, itemPieces, Text.ofString, Text.ofChars]

theorem membersAt_nil : membersAt level [] = [] := rfl

theorem membersAt_cons : membersAt level ((n, v) :: members) =
    .char ',' :: (newLine level ++ (writeText n ++ (.char ':' :: .char ' ' ::
      (textAt level v ++ membersAt level members)))) := by
  simp [textAt, membersAt, memberPieces, Text.ofString, Text.ofChars]

theorem writeText_append (n rest : Text) :
    writeText n ++ rest = .char '"' :: (n.flatMap writeCodePoint ++ .char '"' :: rest) := by
  simp [writeText, Text.ofString, Text.ofChars]

theorem length_le_length_itemsAt (level : Nat) (items : List Json) :
    items.length ≤ (itemsAt level items).length := by
  induction items with
  | nil => exact Nat.zero_le _
  | cons v items ih =>
    simp only [itemsAt_cons, List.length_cons, List.length_append]
    omega

theorem length_le_length_membersAt (level : Nat) (members : List (Text × Json)) :
    members.length ≤ (membersAt level members).length := by
  induction members with
  | nil => exact Nat.zero_le _
  | cons m members ih =>
    obtain ⟨n, v⟩ := m
    simp only [membersAt_cons, List.length_cons, List.length_append]
    omega

/-- No item is longer than all of them together, so that there is enough fuel for each. -/
theorem length_textAt_le_of_mem_items (level : Nat) (h : v ∈ items) :
    (textAt level v).length ≤ (itemsAt level items).length := by
  induction items with
  | nil => cases h
  | cons w items ih =>
    simp only [itemsAt_cons, List.length_cons, List.length_append]
    rcases List.mem_cons.mp h with rfl | h
    · omega
    · have := ih h
      omega

/-- No member is longer than all of them together. -/
theorem length_textAt_le_of_mem_members (level : Nat) (h : (n, v) ∈ members) :
    (textAt level v).length ≤ (membersAt level members).length := by
  induction members with
  | nil => cases h
  | cons m members ih =>
    obtain ⟨k, w⟩ := m
    simp only [membersAt_cons, List.length_cons, List.length_append]
    rcases List.mem_cons.mp h with heq | h
    · cases heq
      omega
    · have := ih h
      omega

/-! ## White space -/

theorem skipSpace_cons (h : isSpace c = false) : skipSpace (c :: rest) = c :: rest := by
  simp [skipSpace, h]

/-- A new line with its indent is skipped as white space. -/
theorem skipSpace_newLine (level : Nat) (rest : Text) :
    skipSpace (newLine level ++ rest) = skipSpace rest := by
  have hspaces (k : Nat) : skipSpace (List.replicate k (.char ' ') ++ rest) = skipSpace rest := by
    induction k with
    | zero => rfl
    | succ k ih => exact ih
  exact hspaces _

theorem skipSpace_writeText (n rest : Text) :
    skipSpace (writeText n ++ rest) = writeText n ++ rest := by
  rw [writeText_append, skipSpace_cons rfl]

/-! ## Taking a value off the front -/

/-- The text of the value starts with a sign that is neither white space nor the end of an array,
and the reader takes it off the front of any text. -/
structure Takes (readItem : ValueReader) (level : Nat) (v : Json) : Prop where
  starts : ∃ c cs, textAt level v = c :: cs ∧ isSpace c = false ∧ c ≠ ']'
  reads (rest : Text) : readItem (textAt level v ++ rest) = .ok (v, rest)

variable {readItem : ValueReader} {size depth fuel : Nat} {cs more last : Text}

theorem Takes.skipSpace_textAt (h : Takes readItem level v) (rest : Text) :
    skipSpace (textAt level v ++ rest) = textAt level v ++ rest := by
  obtain ⟨c, cs, heq, hspace, -⟩ := h.starts
  rw [heq, List.cons_append, skipSpace_cons hspace]

/-- The last item is followed by the end of the array. -/
theorem readItems_last (hv : readItem cs = .ok (v, rest))
    (hend : skipSpace rest = .char ']' :: more) :
    readItems readItem (fuel + 1) cs = .ok ([v], more) := by
  simp only [readItems, hv, bind, Except.bind, hend]
  rfl

/-- Any other item is followed by a comma and the rest. -/
theorem readItems_next (hv : readItem cs = .ok (v, rest))
    (hcomma : skipSpace rest = .char ',' :: more)
    (hmore : readItems readItem fuel (skipSpace more) = .ok (items, last)) :
    readItems readItem (fuel + 1) cs = .ok (v :: items, last) := by
  simp only [readItems, hv, bind, Except.bind, hcomma, hmore]
  rfl

/-- The items that were written are read back in their order. -/
theorem readItems_itemsAt (hv : Takes readItem level v)
    (hitems : ∀ w ∈ items, Takes readItem level w) (hfuel : items.length < fuel) (below : Nat)
    (rest : Text) :
    readItems readItem fuel (textAt level v ++ (itemsAt level items ++
      (newLine below ++ .char ']' :: rest))) = .ok (v :: items, rest) := by
  induction items generalizing v fuel with
  | nil =>
    obtain ⟨fuel, rfl⟩ := Nat.exists_eq_succ_of_ne_zero (Nat.ne_zero_of_lt hfuel)
    refine readItems_last (hv.reads _) ?_
    rw [itemsAt_nil, List.nil_append, skipSpace_newLine, skipSpace_cons rfl]
  | cons w items ih =>
    obtain ⟨fuel, rfl⟩ := Nat.exists_eq_succ_of_ne_zero (Nat.ne_zero_of_lt hfuel)
    have hw : Takes readItem level w := hitems w (List.mem_cons_self ..)
    have hcomma : skipSpace (itemsAt level (w :: items) ++ (newLine below ++ .char ']' :: rest)) =
        .char ',' :: (newLine level ++ (textAt level w ++ (itemsAt level items ++
          (newLine below ++ .char ']' :: rest)))) := by
      rw [itemsAt_cons, List.cons_append, skipSpace_cons rfl]
      simp only [List.append_assoc]
    refine readItems_next (hv.reads _) hcomma ?_
    rw [skipSpace_newLine, hw.skipSpace_textAt]
    exact ih hw (fun u hu => hitems u (List.mem_cons_of_mem _ hu)) (Nat.lt_of_succ_lt_succ hfuel)

/-- The last member is followed by the end of the object. -/
theorem readMembers_last (hv : Takes readItem level v)
    (hend : skipSpace more = .char '\x7d' :: last) :
    readMembers readItem (fuel + 1)
      (writeText n ++ (.char ':' :: .char ' ' :: (textAt level v ++ more))) =
        .ok ([(n, v)], last) := by
  have hvalue : skipSpace (.char ' ' :: (textAt level v ++ more)) = textAt level v ++ more :=
    hv.skipSpace_textAt more
  rw [writeText_append, readMembers, readText_writeText]
  simp only [bind, Except.bind, skipSpace_cons (c := .char ':') rfl, hvalue, hv.reads, hend]
  rfl

/-- Any other member is followed by a comma and the rest. -/
theorem readMembers_next (hv : Takes readItem level v)
    (hcomma : skipSpace more = .char ',' :: rest)
    (hmore : readMembers readItem fuel (skipSpace rest) = .ok (members, last)) :
    readMembers readItem (fuel + 1)
      (writeText n ++ (.char ':' :: .char ' ' :: (textAt level v ++ more))) =
        .ok ((n, v) :: members, last) := by
  have hvalue : skipSpace (.char ' ' :: (textAt level v ++ more)) = textAt level v ++ more :=
    hv.skipSpace_textAt more
  rw [writeText_append, readMembers, readText_writeText]
  simp only [bind, Except.bind, skipSpace_cons (c := .char ':') rfl, hvalue, hv.reads, hcomma,
    hmore]
  rfl

/-- The members that were written are read back in their order. -/
theorem readMembers_membersAt (hv : Takes readItem level v)
    (hmembers : ∀ m ∈ members, Takes readItem level m.2) (hfuel : members.length < fuel)
    (below : Nat) (rest : Text) :
    readMembers readItem fuel (writeText n ++ (.char ':' :: .char ' ' :: (textAt level v ++
      (membersAt level members ++ (newLine below ++ .char '\x7d' :: rest))))) =
        .ok ((n, v) :: members, rest) := by
  induction members generalizing n v fuel with
  | nil =>
    obtain ⟨fuel, rfl⟩ := Nat.exists_eq_succ_of_ne_zero (Nat.ne_zero_of_lt hfuel)
    refine readMembers_last hv ?_
    rw [membersAt_nil, List.nil_append, skipSpace_newLine, skipSpace_cons rfl]
  | cons m members ih =>
    obtain ⟨fuel, rfl⟩ := Nat.exists_eq_succ_of_ne_zero (Nat.ne_zero_of_lt hfuel)
    obtain ⟨k, w⟩ := m
    refine readMembers_next hv (by rw [membersAt_cons, List.cons_append, skipSpace_cons rfl]) ?_
    simp only [List.append_assoc, List.cons_append, skipSpace_newLine, skipSpace_writeText]
    exact ih (hmembers _ (List.mem_cons_self ..))
      (fun m hm => hmembers m (List.mem_cons_of_mem _ hm)) (Nat.lt_of_succ_lt_succ hfuel)

/-! ## Arrays, objects and texts -/

/-- A new name comes last. -/
theorem setMember_of_not_mem (h : n ∉ members.map Prod.fst) :
    setMember n v members = members ++ [(n, v)] := by
  induction members with
  | nil => rfl
  | cons m members ih =>
    obtain ⟨hne, h⟩ := not_or.mp (mt List.mem_cons.mpr h)
    rw [setMember, if_neg (Ne.symm hne), ih h, List.cons_append]

/-- Members with distinct names are kept as they are. -/
theorem ofMembers_of_nodup (h : (members.map Prod.fst).Nodup) :
    ofMembers members = .obj members := by
  -- the members that were kept and those still to come have distinct names
  have hfold (rest acc : List (Text × Json)) (h : ((acc ++ rest).map Prod.fst).Nodup) :
      rest.foldl (fun acc m => setMember m.1 m.2 acc) acc = acc ++ rest := by
    induction rest generalizing acc with
    | nil => simp
    | cons m rest ih =>
      obtain ⟨n, v⟩ := m
      have hnew : n ∉ acc.map Prod.fst := by
        simp only [List.map_append, List.map_cons, List.nodup_append] at h
        exact fun hmem => h.2.2 n hmem n (List.mem_cons_self ..) rfl
      rw [List.foldl_cons, setMember_of_not_mem hnew, ih _ (by simpa using h), List.append_assoc,
        List.singleton_append]
  rw [ofMembers, hfold members [] h, List.nil_append]

/-- What does not end at once is an array with items. -/
theorem readArray_of_readItems (hstart : skipSpace cs = c :: more) (hc : c ≠ ']')
    (hitems : readItems readItem size (c :: more) = .ok (items, rest)) :
    readArray size readItem cs = .ok (.arr items, rest) := by
  unfold readArray
  split
  next h => rw [hstart] at h; exact absurd (List.cons.inj h).1 hc
  next => rw [hstart, hitems]; rfl

/-- What does not end at once is an object with members. -/
theorem readObject_of_readMembers (hstart : skipSpace cs = c :: more) (hc : c ≠ '\x7d')
    (hmembers : readMembers readItem size (c :: more) = .ok (members, rest)) :
    readObject size readItem cs = .ok (ofMembers members, rest) := by
  unfold readObject
  split
  next h => rw [hstart] at h; exact absurd (List.cons.inj h).1 hc
  next => rw [hstart, hmembers]; rfl

theorem readValue_str (size depth : Nat) (s rest : Text) :
    readValue size depth (writeText s ++ rest) = .ok (.str s, rest) := by
  have hscalar : readScalar (writeText s ++ rest) = .ok (.str s, rest) := by
    rw [writeText_append, readScalar, readText_writeText]
    rfl
  rw [← hscalar, writeText_append]
  cases depth <;> rfl

/-- An array that was written is read back if its items are. -/
theorem readValue_arr (hv : ∀ w ∈ v :: items, Takes (readValue size depth) (level + 1) w)
    (hsize : items.length < size) (rest : Text) :
    readValue size (depth + 1) (textAt level (.arr (v :: items)) ++ rest) =
      .ok (.arr (v :: items), rest) := by
  have hfirst := hv v (List.mem_cons_self ..)
  have hread := readItems_itemsAt hfirst (fun w hw => hv w (List.mem_cons_of_mem _ hw)) hsize
    level rest
  obtain ⟨c, cs, hc, hspace, hclose⟩ := hfirst.starts
  rw [hc, List.cons_append] at hread
  rw [textAt_arr_cons, List.cons_append, readValue]
  refine readArray_of_readItems ?_ hclose hread
  simp only [List.append_assoc, skipSpace_newLine, hc, List.cons_append, List.nil_append]
  exact skipSpace_cons hspace

/-- An object with different names that was written is read back if its values are. -/
theorem readValue_obj (hv : ∀ m ∈ (n, v) :: members, Takes (readValue size depth) (level + 1) m.2)
    (hdistinct : (((n, v) :: members).map Prod.fst).Nodup) (hsize : members.length < size)
    (rest : Text) :
    readValue size (depth + 1) (textAt level (.obj ((n, v) :: members)) ++ rest) =
      .ok (.obj ((n, v) :: members), rest) := by
  have hread := readMembers_membersAt (n := n) (hv (n, v) (List.mem_cons_self ..))
    (fun m hm => hv m (List.mem_cons_of_mem _ hm)) hsize level rest
  rw [writeText_append] at hread
  rw [textAt_obj_cons, List.cons_append, readValue, ← ofMembers_of_nodup hdistinct]
  refine readObject_of_readMembers ?_ (by decide) hread
  simp only [List.append_assoc, skipSpace_newLine, writeText_append, List.cons_append,
    List.nil_append]
  exact skipSpace_cons rfl

/-! ## Values without numbers -/

/-- A value that holds no number and names no member of an object twice, with arrays and objects
nested at most `depth` deep. -/
inductive Wordy : Nat → Json → Prop
  | null {depth : Nat} : Wordy depth .null
  | bool {depth : Nat} (b : Bool) : Wordy depth (.bool b)
  | str {depth : Nat} (s : Text) : Wordy depth (.str s)
  | arr {depth : Nat} {items : List Json} (h : ∀ v ∈ items, Wordy depth v) :
      Wordy (depth + 1) (.arr items)
  | obj {depth : Nat} {members : List (Text × Json)} (distinct : (members.map Prod.fst).Nodup)
      (h : ∀ m ∈ members, Wordy depth m.2) : Wordy (depth + 1) (.obj members)

namespace Wordy

/-- The text of such a value starts at once, with no sign that means something else. -/
theorem exists_textAt_eq_cons (h : Wordy depth v) (level : Nat) :
    ∃ c cs, textAt level v = c :: cs ∧ isSpace c = false ∧ c ≠ ']' ∧ c ≠ '\ufeff' := by
  cases h with
  | null => exact ⟨_, _, rfl, by decide⟩
  | bool b => cases b <;> exact ⟨_, _, rfl, by decide⟩
  | str s => exact ⟨.char '"', _, writeText_append s [], by decide⟩
  | @arr depth items h =>
    cases items with
    | nil => exact ⟨_, _, rfl, by decide⟩
    | cons v items => exact ⟨_, _, textAt_arr_cons, by decide⟩
  | @obj depth members distinct h =>
    cases members with
    | nil => exact ⟨_, _, rfl, by decide⟩
    | cons m members => exact ⟨_, _, textAt_obj_cons, by decide⟩

/-- A value that is read back is taken up to where its text ends. -/
theorem takes_of_reads (h : Wordy depth v)
    (hreads : ∀ rest, readItem (textAt level v ++ rest) = .ok (v, rest)) :
    Takes readItem level v := by
  obtain ⟨c, cs, hstart, hspace, hclose, -⟩ := h.exists_textAt_eq_cons level
  exact ⟨⟨c, cs, hstart, hspace, hclose⟩, hreads⟩

/-- The text of a value, at any level and whatever comes after it, is read as the value. -/
theorem takes (h : Wordy depth v) (level : Nat) (hsize : (textAt level v).length ≤ size) :
    Takes (readValue size depth) level v := by
  induction h generalizing level with
  | @null depth =>
    refine takes_of_reads (@null depth) fun rest => ?_
    cases depth <;> rfl
  | @bool depth b =>
    refine takes_of_reads (@bool depth b) fun rest => ?_
    cases depth <;> cases b <;> rfl
  | @str depth s =>
    refine takes_of_reads (@str depth s) fun rest => ?_
    rw [textAt_str, readValue_str]
  | @arr depth items h ih =>
    refine takes_of_reads (arr h) ?_
    cases items with
    | nil => exact fun rest => rfl
    | cons v items =>
      simp only [textAt_arr_cons, List.length_cons, List.length_append] at hsize
      have hfuel := length_le_length_itemsAt (level + 1) items
      refine readValue_arr (fun w hw => ih w hw _ ?_) (by omega)
      rcases List.mem_cons.mp hw with rfl | hw
      · omega
      · have := length_textAt_le_of_mem_items (level + 1) hw
        omega
  | @obj depth members distinct h ih =>
    refine takes_of_reads (obj distinct h) ?_
    cases members with
    | nil => exact fun rest => rfl
    | cons m members =>
      obtain ⟨n, v⟩ := m
      simp only [textAt_obj_cons, List.length_cons, List.length_append] at hsize
      have hfuel := length_le_length_membersAt (level + 1) members
      refine readValue_obj (fun m hm => ih m hm _ ?_) distinct (by omega)
      rcases List.mem_cons.mp hm with rfl | hm
      · show (textAt (level + 1) v).length ≤ size
        omega
      · have := length_textAt_le_of_mem_members (level + 1) hm
        omega

/-- A value that is nested no deeper than the reader goes is read from the text that is written for
it. -/
theorem read_write (h : Wordy maxDepth v) : read (write v) = .ok v := by
  obtain ⟨c, cs, hstart, -, -, hmark⟩ := h.exists_textAt_eq_cons 0
  have htakes := h.takes 0 (Nat.le_refl _)
  have hread := htakes.reads []
  have hskip := htakes.skipSpace_textAt []
  rw [List.append_nil] at hread hskip
  have hchars : readChars maxDepth (textAt 0 v) = .ok v := by
    unfold readChars
    split
    next h => rw [hstart] at h; exact absurd (List.cons.inj h).1 hmark
    next => rw [hskip, hread]; rfl
  rw [read, readWithin, show write v = textAt 0 v from rfl, hchars]
  rfl

end Wordy

end AutomatonLab.Json
