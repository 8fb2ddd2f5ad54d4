import AutomatonLab.FileStore
import AutomatonLab.Proofs.JsonText
import AutomatonLab.Proofs.WellFormed
import Mathlib.Data.String.Basic

/-!
# What is kept in a file is read again

A text that was written to a file stands there (`FileStore.text_of_write`) : the new file changes no
directory, so that the path leads to the same place as before. Reading the file unifies the ends of
lines, which is no change if there is no carriage return in the text (`FileStore.read_of_write`).
The text of a JSON value has none, since it stands in an escape (`Json.Wordy.not_mem_write`), and a
file keeps the whole text if every code point of it is a character (`Json.ofString_storable`).
-/

namespace AutomatonLab

/-! ## Files -/

namespace FileStore

variable {s s' : FileStore} {path text : String} {p place : Place}

/-- Nothing is cut off at the slashes of a text that has none. -/
theorem splitOnAux_of_plain (m r : List Char) (h : '/' ∉ r) :
    String.splitOnAux (String.ofList (m ++ r)) "/" 0 ⟨String.utf8Len m⟩ 0 [] =
      [String.ofList (m ++ r)] := by
  induction r generalizing m with
  | nil =>
    have hend : String.Pos.Raw.atEnd (String.ofList m) ⟨String.utf8Len m⟩ = true := by simp
    have hwhole : String.Pos.Raw.extract (String.ofList m) 0 ⟨String.utf8Len m⟩ =
        String.ofList m := by simpa using String.extract_of_valid [] m []
    rw [List.append_nil, String.splitOnAux, if_pos hend, hwhole]
    rfl
  | cons c r ih =>
    obtain ⟨hc, hr⟩ := not_or.1 (mt List.mem_cons.2 h)
    have hend : ¬String.Pos.Raw.atEnd (String.ofList (m ++ c :: r)) ⟨String.utf8Len m⟩ = true := by
      have hsize := Char.utf8Size_pos c
      simp only [String.atEnd_iff, String.rawEndPos_ofList, String.utf8Len_append,
        String.utf8Len_cons, String.Pos.Raw.mk_le_mk]
      omega
    have hget : String.Pos.Raw.get (String.ofList (m ++ c :: r)) ⟨String.utf8Len m⟩ = c :=
      String.get_of_valid m (c :: r)
    have hslash : String.Pos.Raw.get "/" 0 = '/' := rfl
    have hne : ¬(c == '/') = true := by simpa using Ne.symm hc
    have hnext : String.Pos.Raw.next (String.ofList (m ++ c :: r))
        (String.Pos.Raw.unoffsetBy ⟨String.utf8Len m⟩ 0) = ⟨String.utf8Len (m ++ [c])⟩ := by
      simpa using String.next_of_valid m c r
    rw [String.splitOnAux, if_neg hend, hget, hslash, if_neg hne, hnext]
    simpa using ih (m ++ [c]) hr

/-- A path without a slash is the name of something in the current directory. -/
theorem names_of_plain (hpath : path ≠ "") (h : '/' ∉ path.toList) : names path = [path] := by
  have hsplit : path.splitOn "/" = [path] := by
    have hwhole := splitOnAux_of_plain [] path.toList h
    rw [List.nil_append, String.ofList_toList] at hwhole
    exact hwhole
  rw [names, hsplit, List.filter_cons_of_pos (by simpa using hpath), List.filter_nil]

theorem lookup_cons_eq (p q : Place) (e : FileEntry) (rest : List (Place × FileEntry)) :
    ((q, e) :: rest).lookup p = if p = q then some e else rest.lookup p := by
  by_cases h : p = q
  · simp [h]
  · have hbeq : (p == q) = false := beq_false_of_ne h
    rw [List.lookup_cons, hbeq, if_neg h]

/-- Of the places only the one that is written has another entry. -/
theorem lookup_put (s : FileStore) (p place : Place) (text : String) :
    (s.put place text).entries.lookup p =
      if p = place then some (.regular text) else s.entries.lookup p := by
  have hreplace (entries : List (Place × FileEntry)) :
      (entries.map fun entry =>
        if entry.1 == place then (entry.1, .regular text) else entry).lookup p =
        if p = place then (entries.lookup p).map fun _ => .regular text
        else entries.lookup p := by
    induction entries with
    | nil => simp
    | cons entry rest ih =>
      obtain ⟨q, e⟩ := entry
      rw [List.map_cons, lookup_cons_eq p q e]
      by_cases hq : q = place
      · simp only [hq, beq_self_eq_true, if_true, lookup_cons_eq, ih]
        split <;> rfl
      · simp only [beq_false_of_ne hq, Bool.false_eq_true, if_false, lookup_cons_eq, ih]
        split
        case isTrue hp => rw [if_neg (hp ▸ hq)]
        case isFalse => rfl
  rw [put]
  split
  case isTrue hthere =>
    obtain ⟨e, he⟩ := Option.isSome_iff_exists.1 hthere
    rw [hreplace]
    split
    case isTrue hp => rw [hp, he]; rfl
    case isFalse => rfl
  case isFalse hnew =>
    rw [List.lookup_append, lookup_cons_eq, List.lookup_nil]
    split
    case isTrue hp =>
      rw [hp, Option.not_isSome_iff_eq_none.1 hnew]
      rfl
    case isFalse => rw [Option.or_none]

/-- A directory stays where it is when something else is written. -/
theorem entry?_put_of_directory (hplace : s.entry? place ≠ some .directory)
    (h : s.entry? p = some .directory) :
    FileStore.entry? (s.put place text) p = some .directory := by
  have hp : p ≠ place := by
    rintro rfl
    exact hplace h
  have hkeys (q) (hq : ∃ e, (q, e) ∈ s.entries) : ∃ e, (q, e) ∈ (s.put place text).entries := by
    obtain ⟨e, he⟩ := hq
    rw [put]
    split
    · refine ⟨if q == place then .regular text else e, List.mem_map.2 ⟨(q, e), he, ?_⟩⟩
      simp only
      split <;> rfl
    · exact ⟨e, List.mem_append_left _ he⟩
  unfold entry? at h ⊢
  split at h
  case isTrue houtermost => rw [if_pos houtermost]
  case isFalse houtermost =>
    rw [if_neg houtermost, lookup_put, if_neg hp]
    split at h
    case h_1 e he => simpa [he] using h
    case h_2 =>
      split at h
      case isTrue hbelow =>
        obtain ⟨⟨q, e⟩, he, hprefix⟩ := List.any_eq_true.1 hbelow
        obtain ⟨e', he'⟩ := hkeys q ⟨e, he⟩
        rw [if_pos (List.any_eq_true.2 ⟨(q, e'), he', hprefix⟩)]
      case isFalse => cases h

/-- What is put at a place is found there, unless it is a directory. -/
theorem entry?_put_self (hplace : s.entry? place ≠ some .directory) :
    FileStore.entry? (s.put place text) place = some (.regular text) := by
  unfold entry? at hplace ⊢
  have houtermost : place.isOutermost ≠ true := fun h => hplace (if_pos h)
  rw [if_neg houtermost, lookup_put, if_pos rfl]

theorem checkDirectory_eq_ok_iff : s.checkDirectory p = .ok () ↔ s.entry? p = some .directory := by
  rw [checkDirectory]
  split <;> simp_all

/-- A path that could be followed leads to the same place as long as no directory goes away. -/
theorem walk_of_directories
    (h : ∀ p, s.entry? p = some .directory → s'.entry? p = some .directory) {names : List String}
    (hwalk : s.walk p names = .ok place) : s'.walk p names = .ok place := by
  induction names generalizing p with
  | nil => exact hwalk
  | cons name rest ih =>
    obtain ⟨q, hstep, hrest⟩ := bind_eq_ok_iff.1 ((List.foldlM_cons ..).symm.trans hwalk)
    obtain ⟨⟨⟩, hdirectory, hname⟩ := bind_eq_ok_iff.1 hstep
    have hdirectory' : s'.checkDirectory p = .ok () :=
      checkDirectory_eq_ok_iff.2 (h p (checkDirectory_eq_ok_iff.1 hdirectory))
    have hstep' : s'.step p name = .ok q := bind_eq_ok_iff.2 ⟨(), hdirectory', hname⟩
    exact (List.foldlM_cons ..).trans (bind_eq_ok_iff.2 ⟨q, hstep', ih hrest⟩)

/-- A path is walked name by name. -/
theorem walk_append {names names' : List String} : s.walk p (names ++ names') = .ok place ↔
    ∃ q, s.walk p names = .ok q ∧ s.walk q names' = .ok place := by
  rw [walk, List.foldlM_append, bind_eq_ok_iff]
  rfl

/-- What a written file needs, and what comes of it. -/
theorem write_eq_ok (h : s.write path text = .ok s') :
    checkPath path = .ok () ∧ endsInSlash path = false ∧
      ∃ place, s.walk (start path) (names path) = .ok place ∧
        s.entry? place ≠ some .directory ∧ s' = s.put place text := by
  obtain ⟨⟨⟩, hpath, h⟩ := bind_eq_ok_iff.1 h
  obtain ⟨directory, hdirectory, h⟩ := bind_eq_ok_iff.1 h
  obtain ⟨⟨⟩, -, h⟩ := bind_eq_ok_iff.1 h
  split at h
  case isTrue => cases h
  case isFalse hslash =>
    obtain ⟨place, hplace, h⟩ := bind_eq_ok_iff.1 h
    have hwalk : s.walk (start path) (names path) = .ok place := by
      have hnames : (names path).dropLast ++ (names path).getLast?.toList = names path := by
        rcases List.eq_nil_or_concat (names path) with hnil | ⟨before, last, hlast⟩
        · rw [hnil]
          rfl
        · simp [hlast]
      rw [← hnames, walk_append]
      exact ⟨directory, hdirectory, hplace⟩
    split at h
    case h_1 => cases h
    case h_2 hother =>
      exact ⟨hpath, by simpa using hslash, place, hwalk, fun heq => hother heq,
        (Except.ok.inj h).symm⟩

/-- What was written to a file stands there. -/
theorem text_of_write (h : s.write path text = .ok s') : s'.text path = .ok text := by
  obtain ⟨hpath, hslash, place, hwalk, hplace, rfl⟩ := write_eq_ok h
  have hwalk' : (s.put place text).walk (start path) (names path) = .ok place :=
    walk_of_directories (fun _ hp => entry?_put_of_directory hplace hp) hwalk
  rw [FileStore.text]
  refine bind_eq_ok_iff.2 ⟨(), hpath, bind_eq_ok_iff.2 ⟨place, hwalk', ?_⟩⟩
  rw [entry?_put_self hplace]
  simp only [hslash, Bool.false_eq_true, if_false]
  rfl

/-- A text without carriage returns keeps its lines. -/
theorem unifyLines_eq_self {cs : List Char} (h : '\r' ∉ cs) : unifyLines cs = cs := by
  induction cs with
  | nil => rfl
  | cons c cs ih =>
    obtain ⟨hc, hcs⟩ := not_or.1 (mt List.mem_cons.2 h)
    rw [unifyLines, ih hcs]
    all_goals grind

/-- A text without carriage returns is read as it was written. -/
theorem read_of_write (h : s.write path text = .ok s') (hlines : '\r' ∉ text.toList) :
    s'.read path = .ok text := by
  rw [read, text_of_write h]
  show Except.ok (String.ofList (unifyLines text.toList)) = _
  rw [unifyLines_eq_self hlines, String.ofList_toList]

end FileStore

/-! ## Texts that a file can keep -/

namespace Text

variable {t t' : Text} {s : String}

/-- A text that can be written as a string is the text of that string. -/
theorem ofString_of_toString? (h : t.toString? = some s) : ofString s = t := by
  obtain ⟨cs, hcs, rfl⟩ := Option.map_eq_some_iff.1 h
  rw [ofString, String.toList_ofList, ofChars]
  induction t generalizing cs with
  | nil =>
    obtain rfl : [] = cs := Option.some.inj hcs
    rfl
  | cons c t ih =>
    simp only [List.mapM_cons, Option.bind_eq_bind, Option.bind_eq_some_iff, Option.pure_def,
      Option.some.injEq] at hcs
    obtain ⟨x, hx, xs, hxs, rfl⟩ := hcs
    cases c with
    | half n => cases hx
    | char c =>
      obtain rfl : c = x := Option.some.inj hx
      rw [List.map_cons, ih xs hxs (by rw [toString?, hxs]; rfl)]

/-- A text can be written as a string exactly if both its parts can. -/
theorem toString?_append_eq_some_iff : (t ++ t').toString? = some s ↔
    ∃ a b, t.toString? = some a ∧ t'.toString? = some b ∧ s = a ++ b := by
  simp only [toString?, List.mapM_append, Option.bind_eq_bind, Option.map_eq_some_iff,
    Option.bind_eq_some_iff, Option.pure_def, Option.some.injEq]
  constructor
  · rintro ⟨-, ⟨cs, hcs, cs', hcs', rfl⟩, rfl⟩
    exact ⟨_, _, ⟨cs, hcs, rfl⟩, ⟨cs', hcs', rfl⟩, String.ofList_append⟩
  · rintro ⟨-, -, ⟨cs, hcs, rfl⟩, ⟨cs', hcs', rfl⟩, rfl⟩
    exact ⟨_, ⟨cs, hcs, cs', hcs', rfl⟩, String.ofList_append⟩

/-- If all pieces of a text are strings, none of them is left out. -/
theorem join_of_toString?_flatten {pieces : List Text} (h : toString? pieces.flatten = some s) :
    String.join (((pieces.map toString?).takeWhile Option.isSome).filterMap id) = s := by
  induction pieces generalizing s with
  | nil => exact Option.some.inj h
  | cons t pieces ih =>
    obtain ⟨a, b, ha, hb, rfl⟩ := toString?_append_eq_some_iff.1 h
    rw [List.map_cons, ha, List.takeWhile_cons_of_pos rfl,
      List.filterMap_cons_some (id_eq (some a)), String.join_cons, ih hb]

end Text

namespace Json

variable {v : Json} {depth level : Nat} {c : CodePoint}

/-- A text that can be kept in a file is kept as a whole. -/
theorem ofString_storable (h : (write v).toString?.isSome = true) :
    Text.ofString (storable v) = write v := by
  obtain ⟨s, hs⟩ := Option.isSome_iff_exists.1 h
  have hjoin : storable v = s := Text.join_of_toString?_flatten hs
  rw [hjoin, Text.ofString_of_toString? hs]

/-! ## Ends of lines -/

theorem not_mem_hexDigits {n : Nat} (h : n < 0x20) :
    CodePoint.char '\r' ∉ Text.ofChars ('\\' :: 'u' :: Text.hexDigits 4 n) := by
  interval_cases n <;> decide

theorem not_mem_writeCodePoint (c : CodePoint) : CodePoint.char '\r' ∉ writeCodePoint c := by
  unfold writeCodePoint
  split_ifs with h1 h2 h3 h4 h5 h6 h7 hcontrol
  iterate 7 decide
  · exact not_mem_hexDigits hcontrol
  · simpa using Ne.symm (by simpa using h4 : c ≠ CodePoint.char '\r')

/-- A carriage return in a text is written as an escape. -/
theorem not_mem_writeText (t : Text) : CodePoint.char '\r' ∉ writeText t := by
  have h := writeText_append t []
  rw [List.append_nil] at h
  rw [h]
  simp [not_mem_writeCodePoint]

theorem not_mem_newLine (level : Nat) : CodePoint.char '\r' ∉ newLine level := by
  simp [newLine]

theorem not_mem_itemsAt {items : List Json}
    (h : ∀ v ∈ items, CodePoint.char '\r' ∉ textAt level v) :
    CodePoint.char '\r' ∉ itemsAt level items := by
  induction items with
  | nil => exact List.not_mem_nil
  | cons v items ih =>
    obtain ⟨hv, hrest⟩ := List.forall_mem_cons.1 h
    simp [itemsAt_cons, not_mem_newLine, hv, ih hrest]

theorem not_mem_membersAt {members : List (Text × Json)}
    (h : ∀ m ∈ members, CodePoint.char '\r' ∉ textAt level m.2) :
    CodePoint.char '\r' ∉ membersAt level members := by
  induction members with
  | nil => exact List.not_mem_nil
  | cons m members ih =>
    obtain ⟨n, v⟩ := m
    obtain ⟨hv, hrest⟩ := List.forall_mem_cons.1 h
    simp [membersAt_cons, not_mem_newLine, not_mem_writeText, hv, ih hrest]

namespace Wordy

/-- There is no carriage return in the text of a value, by induction on it. -/
theorem not_mem_textAt (h : Wordy depth v) (level : Nat) :
    CodePoint.char '\r' ∉ textAt level v := by
  induction h generalizing level with
  | null =>
    show CodePoint.char '\r' ∉ Text.ofString "null"
    decide
  | bool b =>
    cases b with
    | true =>
      show CodePoint.char '\r' ∉ Text.ofString "true"
      decide
    | false =>
      show CodePoint.char '\r' ∉ Text.ofString "false"
      decide
  | str s =>
    rw [textAt_str]
    exact not_mem_writeText s
  | @arr depth items h ih =>
    cases items with
    | nil =>
      show CodePoint.char '\r' ∉ Text.ofString "[]"
      decide
    | cons v items =>
      obtain ⟨hv, hrest⟩ := List.forall_mem_cons.1 ih
      simp [textAt_arr_cons, not_mem_newLine, hv, not_mem_itemsAt fun w hw => hrest w hw _]
  | @obj depth members distinct h ih =>
    cases members with
    | nil =>
      show CodePoint.char '\r' ∉ Text.ofString "\x7b\x7d"
      decide
    | cons m members =>
      obtain ⟨n, v⟩ := m
      obtain ⟨hv, hrest⟩ := List.forall_mem_cons.1 ih
      simp [textAt_obj_cons, not_mem_newLine, not_mem_writeText, hv,
        not_mem_membersAt fun w hw => hrest w hw _]

/-- The text of a whole value has no carriage return. -/
theorem not_mem_write (h : Wordy depth v) : CodePoint.char '\r' ∉ write v :=
  h.not_mem_textAt 0

/-- A value that a file can keep is read from the file again. -/
theorem read_of_write {files files' : FileStore} {path : String} (h : Wordy maxDepth v)
    (hstorable : (write v).toString?.isSome = true)
    (hfiles : files.write path v.storable = .ok files') :
    ∃ s, files'.read path = .ok s ∧ Json.read (Text.ofString s) = .ok v := by
  have htext := ofString_storable hstorable
  refine ⟨v.storable, FileStore.read_of_write hfiles fun hmem => h.not_mem_write ?_, ?_⟩
  · rw [← htext]
    exact List.mem_map_of_mem hmem
  · rw [htext, h.read_write]

end Wordy

end Json

end AutomatonLab
