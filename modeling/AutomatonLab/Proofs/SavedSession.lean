import AutomatonLab.Proofs.OpenedFile
import AutomatonLab.Proofs.Tending

/-!
# A saved session

A window saves the automaton of its engine together with the text of its entry. The file still
defines the automaton : the input is one more member, at which a definition does not look
(`WindowControl.ofJson_savedValue`). So the automaton and the text are read from every store in which
the file is as it was (`WindowControl.readFile_of_write`), and a window can be given them in any
state (`WindowControl.exists_openFile_saved`). As no timer is left behind, that window waits for none
afterwards (`reopened_of_saved`).
-/

namespace AutomatonLab

open Control

namespace WindowControl

open Desk

variable {d d' : Desk Window} {a : Automaton} {path : String}

/-! ## What is saved -/

/-- The input that is saved with an automaton does not belong to its definition. -/
theorem ofJson_savedValue (ha : a.Restorable) (entry : Text) :
    Automaton.ofJson (savedValue a entry) = ⟨.ok a, []⟩ :=
  Automaton.ofJson_toJson ha

/-- The input that is saved is the entry. -/
theorem member?_savedValue (a : Automaton) (entry : Text) :
    (savedValue a entry).member? "input" = some (.str entry) :=
  rfl

/-- What is saved is a readable value. -/
theorem wordy_savedValue (a : Automaton) (entry : Text) :
    Json.Wordy Json.maxDepth (savedValue a entry) := by
  have hnames : (["formalism", "states", "transitions", "input"] : List Text).Nodup := by decide
  refine .obj hnames fun m hm => ?_
  rcases List.mem_append.1 hm with hmember | hinput
  · exact a.wordy_members (Json.maxDepth - 3) m hmember
  · rw [List.mem_singleton.1 hinput]
    exact .str entry

/-- A call that saves a file and shows no error box has written the whole text. -/
theorem write_of_saveFile (hpath : path ≠ "") (h : exec (saveFile path) d = (.ok (), d'))
    (hdialogs : d'.outside.dialogs = d.outside.dialogs) :
    let saved := savedValue d.engine.automaton d.outside.entry
    saved.write.toString?.isSome = true ∧
      d.outside.room.files.write path saved.storable = .ok d'.outside.room.files := by
  intro saved
  have hempty : ¬path.isEmpty = true := by simpa using hpath
  rw [saveFile, if_neg hempty, exec_bind_of_ok (exec_window d), exec_bind_of_ok (exec_engine d)]
    at h
  simp only at h
  split at h
  case h_1 => cases h
  case h_2 =>
    have hshown : d'.outside.dialogs = d.outside.dialogs ++ [_] :=
      congrArg (fun p => p.2.outside.dialogs) h.symm
    simp [hdialogs] at hshown
  case h_3 files hwrite =>
    rw [exec_bind_of_ok (exec_updateWindow _ d)] at h
    split at h
    case isTrue => cases h
    case isFalse hwhole =>
      obtain rfl : _ = d' := congrArg Prod.snd h
      exact ⟨Option.isSome_iff_ne_none.2 (by simpa using hwhole), hwrite⟩

/-- A file that can be written is saved, and the store is all that changes of the room. -/
theorem exists_saveFile (hpath : path ≠ "") {files : FileStore}
    (hwhole : (savedValue d.engine.automaton d.outside.entry).write.toString?.isSome = true)
    (hwrite : d.outside.room.files.write path
      (savedValue d.engine.automaton d.outside.entry).storable = .ok files) :
    ∃ d', exec (saveFile path) d = (.ok (), d') ∧ d'.outside.dialogs = d.outside.dialogs ∧
      d'.outside.room = { d.outside.room with files := files } := by
  have hempty : ¬path.isEmpty = true := by simpa using hpath
  have hkept : ¬(savedValue d.engine.automaton d.outside.entry).write.toString?.isNone = true := by
    simpa using Option.isSome_iff_ne_none.1 hwhole
  rw [saveFile, if_neg hempty, exec_bind_of_ok (exec_window d), exec_bind_of_ok (exec_engine d)]
  simp only [hwrite]
  rw [exec_bind_of_ok (exec_updateWindow _ d), if_neg hkept]
  exact ⟨_, rfl, rfl, rfl⟩

/-- What was saved is read from every store in which the file is as it was. -/
theorem readFile_of_write (ha : a.Restorable) {entry : Text} {files files' later : FileStore}
    (hwhole : (savedValue a entry).write.toString?.isSome = true)
    (hwrite : files.write path (savedValue a entry).storable = .ok files')
    (hlater : later.read path = files'.read path) :
    readFile later path = ⟨.ok (savedValue a entry, a), []⟩ := by
  obtain ⟨s, hread, hjson⟩ := (wordy_savedValue a entry).read_of_write hwhole hwrite
  have hdata := ofJson_savedValue ha entry
  have hfile := readFile_eq_ok (hlater.trans hread) hjson (congrArg Outcome.result hdata)
  rwa [hdata] at hfile

/-- A file that was saved is opened in any state of a window, without a warning. -/
theorem exists_openFile_saved (ha : a.Restorable) {entry : Text} (hpath : path ≠ "")
    (hread : readFile d.outside.room.files path = ⟨.ok (savedValue a entry, a), []⟩)
    (hsize : ∀ size, d.outside.room.canvasSize = some size → Window.Drawable size) :
    ∃ d' entries, exec (openFile path) d = (.ok (), d') ∧ d'.Opened a entry ∧
      d'.outside.dialogs = d.outside.dialogs ∧ d'.log = entries ++ d.log ∧
      ∀ e ∈ entries, e.level = .debug := by
  have hinput : ((savedValue a entry).member? "input").getD (.str "") = .str entry := by
    rw [member?_savedValue, Option.getD_some]
  have hdata := congrArg Outcome.result (ofJson_savedValue ha entry)
  obtain ⟨entries, hlog, hlevels⟩ := log_installed (d.note []) a entry
  exact ⟨_, entries, exec_openFile_of_str hpath hread hdata hsize hinput,
    (opened_installed _ a entry).filed path, dialogs_installed _ a entry, hlog, hlevels⟩

end WindowControl

namespace Desktop

variable {t : Desktop} {d d' : Desk Window} {k : Nat}

/-- A call on a window is what it does on the desk lent to it. -/
theorem onWindow_of_exec {α : Type} {call : WindowControl α} {r : Except Fault α}
    (hd : t.windows[k]? = some d) (h : exec call (t.lend d) = (r, d')) :
    t.onWindow k call = (r, t.restore k d') := by
  rw [onWindow, hd]
  simp only [h]

theorem windows_restore (hd : t.windows[k]? = some d) (d' : Desk Window) :
    (t.restore k d').windows[k]? = some d' :=
  List.getElem?_set_self (List.getElem?_eq_some_iff.1 hd).1

/-- No timer is left of a window that waits for none. -/
theorem Tended.owner_ne (h : t.Tended) (hd : t.windows[k]? = some d)
    (hsettle : d.outside.settle = none) (hpending : d.engine.pending = none) :
    ∀ j ∈ t.agenda.jobs, j.owner ≠ k := by
  intro j hj hown
  have hknows : (t.lend d).Knows j := (h.windows k d hd).known j hj hown
  unfold Desk.Knows at hknows
  split at hknows
  · exact Option.some_ne_none _ (hknows.symm.trans hsettle)
  · exact Option.some_ne_none _ (hknows.symm.trans hpending)

end Desktop

/-- Whatever has happened before a file was saved and since : if the file is as it was, it is opened
in any window. A new run begins on the automaton and the text of the entry that were saved, nothing
is skipped, and the window waits for no timer. -/
theorem reopened_of_saved {files : FileStore} {canvasSize : Option (Int × Int)}
    {rule : EntryRule} {before after : List Happening} {t t₁ t₂ : Desktop} {k k' : Nat}
    {d d₁ d₂ : Desk Window} {path : String}
    (ht : (Desktop.empty files canvasSize rule).nextAll before = t)
    (hd : t.windows[k]? = some d)
    (hloaded : ∃ data, (Automaton.ofJson data).result = .ok d.engine.automaton)
    (hpath : path ≠ "") (hsave : t.onWindow k (WindowControl.saveFile path) = (.ok (), t₁))
    (hd₁ : t₁.windows[k]? = some d₁) (hdialogs : d₁.outside.dialogs = d.outside.dialogs)
    (hafter : t₁.nextAll after = t₂)
    (hfile : t₂.room.files.read path = t₁.room.files.read path)
    (hsize : ∀ size, t₂.room.canvasSize = some size → Window.Drawable size)
    (hd₂ : t₂.windows[k']? = some d₂) :
    ∃ t₃ d₃ entries, t₂.onWindow k' (WindowControl.openFile path) = (.ok (), t₃) ∧
      t₃.windows[k']? = some d₃ ∧ d₃.Opened d.engine.automaton d.outside.entry ∧
      d₃.outside.dialogs = d₂.outside.dialogs ∧ t₃.log = entries ++ t₂.log ∧
      (∀ e ∈ entries, e.level = .debug) ∧ ∀ j ∈ t₃.agenda.jobs, j.owner ≠ k' := by
  obtain ⟨data, hdata⟩ := hloaded
  have ha := Automaton.restorable_of_ofJson hdata
  have htended : t₂.Tended := by
    have hsaved := (ht ▸ Desktop.tended_of_happenings files canvasSize rule before :
      t.Tended).onWindow k fun _ => WindowControl.leaves_saveFile path
    rw [hsave] at hsaved
    exact hafter ▸ hsaved.nextAll after
  -- the file holds what the window had
  rcases hexec : exec (WindowControl.saveFile path) (t.lend d) with ⟨r, e⟩
  obtain ⟨rfl, rfl⟩ := Prod.mk.inj ((Desktop.onWindow_of_exec hd hexec).symm.trans hsave)
  obtain rfl : e = d₁ := Option.some.inj ((Desktop.windows_restore hd e).symm.trans hd₁)
  obtain ⟨hwhole, hwrite⟩ := WindowControl.write_of_saveFile hpath hexec hdialogs
  have hread := WindowControl.readFile_of_write ha hwhole hwrite hfile
  -- and the other window is given it
  obtain ⟨d₃, entries, hopen, hopened, hboxes, hlog, hlevels⟩ :=
    WindowControl.exists_openFile_saved (d := t₂.lend d₂) ha hpath hread hsize
  have honWindow := Desktop.onWindow_of_exec hd₂ hopen
  have hd₃ := Desktop.windows_restore hd₂ d₃
  have htended₃ := htended.onWindow k' fun _ => WindowControl.leaves_openFile path
  rw [honWindow] at htended₃
  exact ⟨_, d₃, entries, honWindow, hd₃, hopened, hboxes, hlog, hlevels,
    htended₃.owner_ne hd₃ hopened.settle hopened.pending⟩

/-- A session of the first window, which is closed after it was saved, is opened in a second window
while that one runs a Turing machine. -/
theorem reopened_of_saved_closed :
    let before : List Happening := [.openWindow .fa, .openWindow .tm, .command 0 (.enterText "ab"),
      .command 0 (.click 0), .command 1 (.click 0)]
    let t := (Desktop.empty ⟨[]⟩ none).nextAll before
    let a := (Catalog.initial .fa).automaton
    t.agenda.jobs.map Job.owner = [0, 1] ∧
      ∃ t₁ t₃ d₃, t.onWindow 0 (WindowControl.saveFile "x") = (.ok (), t₁) ∧
        (t₁.closeWindow 0).onWindow 1 (WindowControl.openFile "x") = (.ok (), t₃) ∧
        t₃.windows[1]? = some d₃ ∧ d₃.Opened a "ab" ∧ ∀ j ∈ t₃.agenda.jobs, j.owner ≠ 1 := by
  intro before t a
  have hfirst : (t.windows[0]?.map fun d => (d.engine.automaton, d.outside.entry)) =
      some (a, Text.ofString "ab") := by decide +kernel
  obtain ⟨d, hd, hshown⟩ := Option.map_eq_some_iff.1 hfirst
  obtain ⟨ha, hentry⟩ := Prod.mk.inj hshown
  have hsecond : t.windows[1]?.isSome = true := by decide +kernel
  obtain ⟨d₂, hd₂⟩ := Option.isSome_iff_exists.1 hsecond
  -- the file of the first one
  have hfiles : t.room.files = ⟨[]⟩ := by decide +kernel
  have hsize : t.room.canvasSize = none := by decide +kernel
  have hwhole : (WindowControl.savedValue a "ab").write.toString?.isSome = true := by decide +kernel
  have hwrite : t.room.files.write "x" (WindowControl.savedValue a "ab").storable =
      .ok ⟨[(["x"], .regular (WindowControl.savedValue a "ab").storable)]⟩ := by
    rw [hfiles, FileStore.write, FileStore.names_of_plain (by decide) (by decide)]
    decide +kernel
  rw [← ha, ← hentry] at hwhole hwrite
  obtain ⟨d₁, hsave, hdialogs, hroom⟩ :=
    WindowControl.exists_saveFile (d := t.lend d) (by decide) hwhole hwrite
  have honWindow := Desktop.onWindow_of_exec hd hsave
  -- what the second window finds
  have hunknown : d₁.outside.room.canvasSize = none := by
    rw [hroom]
    exact hsize
  have hother : ((t.restore 0 d₁).closeWindow 0).windows[1]? = some d₂ :=
    (List.getElem?_set_ne (by decide)).trans hd₂
  have hclosed : (t.restore 0 d₁).nextAll [.closeWindow 0] = (t.restore 0 d₁).closeWindow 0 := rfl
  obtain ⟨t₃, d₃, -, hopen, hd₃, hopened, -, -, -, hjobs⟩ := reopened_of_saved rfl hd
    ⟨a.toJson, by rw [ha]; rfl⟩ (by decide) honWindow (Desktop.windows_restore hd d₁) hdialogs
    hclosed rfl (fun size hs => absurd (hs.symm.trans hunknown) (Option.some_ne_none _)) hother
  exact ⟨by decide +kernel, _, t₃, d₃, honWindow, hopen, hd₃, ha ▸ hentry ▸ hopened, hjobs⟩

end AutomatonLab
