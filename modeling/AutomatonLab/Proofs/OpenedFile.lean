import AutomatonLab.Proofs.ForeignInput
import AutomatonLab.Proofs.Reloading
import AutomatonLab.Proofs.StoredText

/-!
# Opening a file

A file is opened in any state of a window, and its automaton is installed if its input is a text
(`Desk.Opened`, `WindowControl.exec_openFile_of_str`). The input is looked at last : one that is no
text is noticed when the engine has the automaton already. A value that the toolkit enters is shown
as far as it can be drawn (`Desk.Entered`), and before that the window has the states of the old
automaton in their places (`Desk.Torn`). No error box tells of either, so that such a file is neither
opened nor refused (`opened_torn_or_entered`, `neither_opened_nor_refused`).
-/

namespace AutomatonLab

open Control

/-- The value is written with characters only : no text in it holds a half of one, which a toolkit
need not show. -/
def Json.Whole (v : Json) : Prop := v.write.toString?.isSome = true

/-! ## What is left of a desk -/

namespace Desk

variable {d d' : Desk Window} {a : Automaton} {entry : Text}

/-- The window shows an automaton that has just been installed with a text, and waits for no
timer. -/
structure Opened (a : Automaton) (entry : Text) (d : Desk Window) : Prop where
  automaton : d.engine.automaton = a
  status : d.engine.status = .ready
  input : d.engine.input = entry
  entry : d.outside.entry = entry
  textual : d.outside.foreign = none
  places : d.outside.places = Diagram.circle a.states
  inFlight : d.engine.inFlight = false
  running : d.engine.running = false
  pending : d.engine.pending = none
  settle : d.outside.settle = none
  highlight : d.outside.highlight = none

/-- The desk when an automaton has been installed with a text, before the window shows it. -/
def installing (d : Desk Window) (a : Automaton) (entry : Text) : Desk Window :=
  (d.undisplayed.loaded a (some entry)).textual.presented a entry

/-- The desk when the window works on a file. -/
def filed (d : Desk Window) (path : String) : Desk Window :=
  ({ d with outside := { d.outside with file := some (Text.ofString path) } } : Desk Window).saying
    ("Arquivo '" ++ FileStore.baseName path ++ "' carregado.")

/-- The window can show the automaton that is being installed. -/
theorem fits_installing (ha : a.Typed) (hv : a.validate = .ok ())
    (hsize : ∀ size, d.outside.room.canvasSize = some size → Window.Drawable size)
    (entry : Text) : (d.installing a entry).outside.Fits (d.installing a entry).engine :=
  ⟨ha, Automaton.validate_eq_ok_iff.1 hv, Int.le_refl 0, rfl, rfl, hsize⟩

/-- What has been installed is as it is to be when a file is opened. -/
theorem opened_installed (d : Desk Window) (a : Automaton) (entry : Text) :
    (d.installing a entry).redrawn.Opened a entry := by
  have hpage := (d.installing a entry).outside.samePage_redraw (d.installing a entry).engine
  unfold Window.SamePage at hpage
  exact ⟨rfl, rfl, rfl, (congrArg Window.entry hpage :), (congrArg Window.foreign hpage :),
    (congrArg Window.places hpage :), rfl, rfl, rfl, (congrArg Window.settle hpage :),
    (congrArg Window.highlight hpage :)⟩

/-- Nothing is logged of an installed automaton but the new run and a row of the window. -/
theorem log_installed (d : Desk Window) (a : Automaton) (entry : Text) :
    ∃ entries, (d.installing a entry).redrawn.log = entries ++ d.log ∧
      ∀ e ∈ entries, e.level = .debug :=
  ⟨[Decision.debug _, Engine.readyNote _], rfl, by simp [Decision.debug, Engine.readyNote]⟩

/-- The name of the file and the text in the status bar do not matter. -/
theorem Opened.filed (h : d.Opened a entry) (path : String) : (d.filed path).Opened a entry :=
  ⟨h.automaton, h.status, h.input, h.entry, h.textual, h.places, h.inFlight, h.running, h.pending,
    h.settle, h.highlight⟩

/-- No error box is shown when an automaton is installed with a text. -/
theorem dialogs_installed (d : Desk Window) (a : Automaton) (entry : Text) :
    (d.installing a entry).redrawn.outside.dialogs = d.outside.dialogs := by
  have hpage := (d.installing a entry).outside.samePage_redraw (d.installing a entry).engine
  unfold Window.SamePage at hpage
  exact (congrArg Window.dialogs hpage :)

end Desk

/-- What a file defines can be installed. -/
theorem Automaton.typed_of_ofJson {data : Json} {a : Automaton}
    (h : (Automaton.ofJson data).result = .ok a) : a.Typed ∧ a.validate = .ok () := by
  have hrestorable := Automaton.restorable_of_ofJson h
  exact ⟨⟨hrestorable.formalism, fun t ht => (hrestorable.labels t ht).1⟩,
    Automaton.validate_eq_ok_iff.2 hrestorable.wellFormed⟩

namespace WindowControl

open Desk

variable {d : Desk Window} {a : Automaton} {v data : Json} {path : String} {log : List LogEntry}

/-! ## Installing in any state -/

/-- A text is accepted as an input in any state of the window. -/
theorem exec_install (ha : a.Typed) (hv : a.validate = .ok ())
    (hsize : ∀ size, d.outside.room.canvasSize = some size → Window.Drawable size)
    (entry : Text) :
    exec (install a (.str entry)) d = (.ok true, (d.installing a entry).redrawn) := by
  have hpresent : exec (present a entry) (d.undisplayed.loaded a (some entry)).textual =
      (.ok (), (d.installing a entry).redrawn) := exec_redraw (fits_installing ha hv hsize entry)
  rw [install, exec_bind_of_ok (exec_cancelSettle d), hv]
  simp only [exec_bind, exec_loadInput hv, hpresent, exec_pure]

/-! ## Reading and installing -/

/-- A file that holds the definition of an automaton is read. -/
theorem readFile_eq_ok {files : FileStore} {text : String} (hread : files.read path = .ok text)
    (hjson : Json.read (Text.ofString text) = .ok data)
    (hdata : (Automaton.ofJson data).result = .ok a) :
    readFile files path = ⟨.ok (data, a), (Automaton.ofJson data).log⟩ := by
  have hloaded : Automaton.ofJson data = ⟨.ok a, (Automaton.ofJson data).log⟩ := by rw [← hdata]
  refine Outcome.ofExcept_bind_eq_ok_iff.2 ⟨text, by rw [hread]; rfl, ?_⟩
  refine Outcome.ofExcept_bind_eq_ok_iff.2 ⟨data, by rw [hjson]; rfl, ?_⟩
  rw [hloaded]
  exact congrArg (Outcome.mk _) (List.append_nil _)

/-- What was read is installed, and the window works on the file if there is nothing wrong. -/
theorem exec_openFile_of_read (hpath : path ≠ "")
    (hread : readFile d.outside.room.files path = ⟨.ok (data, a), log⟩) :
    exec (openFile path) d = exec (do
      if ← install a ((data.member? "input").getD (.str "")) then
        updateWindow fun w => { w with file := some (Text.ofString path) }
        say ("Arquivo '" ++ FileStore.baseName path ++ "' carregado.")) (d.note log) := by
  have hempty : ¬path.isEmpty = true := by simpa using hpath
  have hexplained : exec (ofOutcome (explained (readFile d.outside.room.files path))) d =
      (.ok (.ok (data, a)), d.note log) := by rw [hread]; rfl
  rw [openFile, if_neg hempty, exec_bind_of_ok (exec_window d), exec_bind_of_ok hexplained]

/-- A file with a text as its input is opened. -/
theorem exec_openFile_of_str (hpath : path ≠ "")
    (hread : readFile d.outside.room.files path = ⟨.ok (data, a), log⟩)
    (hdata : (Automaton.ofJson data).result = .ok a)
    (hsize : ∀ size, d.outside.room.canvasSize = some size → Window.Drawable size) {entry : Text}
    (hinput : (data.member? "input").getD (.str "") = .str entry) :
    exec (openFile path) d = (.ok (), (((d.note log).installing a entry).redrawn).filed path) := by
  obtain ⟨ha, hv⟩ := Automaton.typed_of_ofJson hdata
  rw [exec_openFile_of_read hpath hread, hinput,
    exec_bind_of_ok (exec_install (d := d.note log) ha hv hsize entry)]
  rfl

/-- A file is given up if its input fills no tape, or is refused by the toolkit. -/
theorem exists_openFile_torn (hpath : path ≠ "")
    (hread : readFile d.outside.room.files path = ⟨.ok (data, a), log⟩)
    (hdata : (Automaton.ofJson data).result = .ok a)
    (hinput : (data.member? "input").getD (.str "") = v) (htext : ∀ entry, v ≠ .str entry)
    (h : ¬v.Fills a.formalism ∨ ∃ fault, d.outside.room.entries.enter v = .error fault) :
    ∃ fault d', exec (openFile path) d = (.error fault, d') ∧ Torn a d d' := by
  obtain ⟨-, hv⟩ := Automaton.typed_of_ofJson hdata
  obtain ⟨fault, d', hinstall, hd'⟩ := exists_install_torn (d := d.note log) hv htext h
  refine ⟨fault, d', ?_, hd'.of_note⟩
  rw [exec_openFile_of_read hpath hread, hinput, exec_bind, hinstall]

/-- A file whose input the toolkit enters is opened, up to where the input cannot be drawn. -/
theorem exists_openFile_entered (hpath : path ≠ "")
    (hread : readFile d.outside.room.files path = ⟨.ok (data, a), log⟩)
    (hdata : (Automaton.ofJson data).result = .ok a)
    (hsize : ∀ size, d.outside.room.canvasSize = some size → Window.Drawable size)
    (hinput : (data.member? "input").getD (.str "") = v) (htext : ∀ entry, v ≠ .str entry)
    (hfills : v.Fills a.formalism) {shown : Text}
    (henter : d.outside.room.entries.enter v = .ok shown) :
    ∃ r d', exec (openFile path) d = (r, d') ∧ d.Entered a v shown d' ∧
      (v.Drawn a.formalism → r = .ok () ∧ d'.outside.file = some (Text.ofString path)) ∧
      (¬v.Drawn a.formalism → r = .error .unusableValue ∧ d'.outside.file = d.outside.file) := by
  obtain ⟨ha, hv⟩ := Automaton.typed_of_ofJson hdata
  obtain ⟨r, d', hinstall, hnoted, hfile, hdrawn, hbroken⟩ :=
    exists_install_entered (d := d.note log) ha hv hsize htext hfills henter
  have hentered : d.Entered a v shown d' := hnoted.of_note
  rw [exec_openFile_of_read hpath hread, hinput]
  by_cases h : v.Drawn a.formalism
  · rw [hdrawn h] at hinstall
    rw [exec_bind_of_ok hinstall]
    exact ⟨_, d'.filed path, rfl, hentered.congr rfl rfl, fun _ => ⟨rfl, rfl⟩, absurd h⟩
  · rw [hbroken h] at hinstall
    exact ⟨_, d', by rw [exec_bind, hinstall], hentered, fun hd => absurd hd h,
      fun _ => ⟨rfl, hfile⟩⟩

end WindowControl

/-- Whatever the state of a window and its toolkit are : a file with the definition of an automaton
is opened if its input is a text, or if it has none. With any other value as its input there is no
error box, and the engine has the automaton of the file. If the value fills no tape or is refused by
the toolkit, there is a fault, and the window has at most the title of the automaton. If it is
entered, the window shows the automaton, and there is a fault unless the value can be drawn; but the
input of the engine is no text. -/
theorem opened_torn_or_entered {d : Desk Window} {path text : String} {data : Json} {a : Automaton}
    (hsize : ∀ size, d.outside.room.canvasSize = some size → Window.Drawable size)
    (hpath : path ≠ "") (hread : d.outside.room.files.read path = .ok text)
    (hjson : Json.read (Text.ofString text) = .ok data)
    (hdata : (Automaton.ofJson data).result = .ok a) (_hwhole : data.Whole) :
    let input := (data.member? "input").getD (.str "")
    let rule := d.outside.room.entries
    let opened := exec (WindowControl.openFile path) d
    (∀ entry, input = .str entry →
      opened.1 = .ok () ∧ opened.2.Opened a entry ∧
        opened.2.outside.dialogs = d.outside.dialogs) ∧
      ((∀ entry, input ≠ .str entry) →
        (¬input.Fills a.formalism ∨ (∃ fault, rule.enter input = .error fault) →
          (∃ fault, opened.1 = .error fault) ∧ d.Torn a opened.2) ∧
        ∀ shown, input.Fills a.formalism → rule.enter input = .ok shown →
          d.Entered a input shown opened.2 ∧
            (input.Drawn a.formalism →
              opened.1 = .ok () ∧ opened.2.outside.file = some (Text.ofString path)) ∧
            (¬input.Drawn a.formalism →
              opened.1 = .error .unusableValue ∧
                opened.2.outside.file = d.outside.file)) := by
  intro input rule opened
  have hfile := WindowControl.readFile_eq_ok hread hjson hdata
  refine ⟨fun entry hinput => ?_, fun htext => ⟨fun h => ?_, fun shown hfills henter => ?_⟩⟩
  · have hopen : opened = _ := WindowControl.exec_openFile_of_str hpath hfile hdata hsize hinput
    rw [hopen]
    exact ⟨rfl, (Desk.opened_installed _ a entry).filed path, Desk.dialogs_installed _ a entry⟩
  · obtain ⟨fault, d', hopen, htorn⟩ :=
      WindowControl.exists_openFile_torn hpath hfile hdata rfl htext h
    have hopened : opened = (.error fault, d') := hopen
    rw [hopened]
    exact ⟨⟨fault, rfl⟩, htorn⟩
  · obtain ⟨r, d', hopen, hentered, hdrawn, hbroken⟩ :=
      WindowControl.exists_openFile_entered hpath hfile hdata hsize rfl htext hfills henter
    have hopened : opened = (r, d') := hopen
    rw [hopened]
    exact ⟨hentered, hdrawn, hbroken⟩

/-! ## A number as the input -/

/-- The text of a file with a number as the input of a finite automaton. -/
def numberText : String :=
  "\x7b\"states\":[\x7b\"name\":\"q\",\"initial\":true\x7d],\"input\":5\x7d"

/-- What the text says. -/
def numberValue : Json :=
  .obj [("states", .arr [.obj [("name", .str "q"), ("initial", .bool true)]]), ("input", .int 5)]

theorem read_numberText : Json.read (Text.ofString numberText) = .ok numberValue := by rfl

/-- The text of a file with a number as the input of a machine, which has a state that the machine
of a new window does not have. -/
def strayText : String :=
  "\x7b\"formalism\":\"tm\",\"states\":[\x7b\"name\":\"z\"\x7d," ++
    "\x7b\"name\":\"q0\",\"initial\":true\x7d],\"input\":5\x7d"

/-- What the text says. -/
def strayValue : Json :=
  .obj [("formalism", .str "tm"),
    ("states", .arr [.obj [("name", .str "z")],
      .obj [("name", .str "q0"), ("initial", .bool true)]]), ("input", .int 5)]

theorem read_strayText : Json.read (Text.ofString strayText) = .ok strayValue := by rfl

/-- A desk with a file, while the first step of a run of an example is on display. Its entry takes
numbers. -/
def runningDesk (x : Example) (text : String) : Desk Window :=
  Turn.run.next (exec (WindowControl.present x.automaton x.input)
    (Desk.new x.automaton x.input 200 true none (some (.empty true)) 0
      (Window.blank "w" ⟨⟨[(["x"], .regular text)]⟩, none, 0, .numerals⟩))).2

/-- A file of the current directory is read as it is, if its lines end in one way. -/
theorem read_single {text : String} (h : FileStore.unifyLines text.toList = text.toList) :
    FileStore.read ⟨[(["x"], .regular text)]⟩ "x" = .ok text := by
  have htext : FileStore.text ⟨[(["x"], .regular text)]⟩ "x" = .ok text := by
    have hpath : FileStore.checkPath "x" = .ok () := by decide +kernel
    have hstart : FileStore.start "x" = [] := by decide +kernel
    have hslash : FileStore.endsInSlash "x" = false := by decide +kernel
    rw [FileStore.text, FileStore.names_of_plain (by decide) (by decide), hpath, hstart, hslash]
    rfl
  rw [FileStore.read, htext]
  simp only [Except.map, h, String.ofList_toList]

/-- The file with a number, opened while a step of a finite automaton is on display : the number is
entered, but what is left of it cannot be drawn. -/
theorem opened_torn_or_entered_number :
    let d := runningDesk Catalog.evenA numberText
    let a : Automaton := ⟨.fa, [⟨"q", true, false⟩], []⟩
    d.outside.room.canvasSize = none ∧ d.outside.room.files.read "x" = .ok numberText ∧
      (Automaton.ofJson numberValue).result = .ok a ∧ numberValue.Whole ∧
      d.Entered a (.int 5) "5" (exec (WindowControl.openFile "x") d).2 ∧
      (exec (WindowControl.openFile "x") d).1 = .error .unusableValue := by
  intro d a
  have hsize : d.outside.room.canvasSize = none := by decide +kernel
  have hfiles : d.outside.room.files = ⟨[(["x"], .regular numberText)]⟩ := by decide +kernel
  have hread : d.outside.room.files.read "x" = .ok numberText := by
    rw [hfiles, read_single (by decide +kernel)]
  have hdata : (Automaton.ofJson numberValue).result = .ok a := by rfl
  have hwhole : numberValue.Whole := by unfold Json.Whole; decide +kernel
  have hnumber : (numberValue.member? "input").getD (.str "") = .int 5 := by rfl
  obtain ⟨-, hforeign⟩ := opened_torn_or_entered (fun size hs => by simp [hsize] at hs)
    (by decide) hread read_numberText hdata hwhole
  rw [hnumber] at hforeign
  obtain ⟨-, hentered⟩ := hforeign nofun
  obtain ⟨hshown, -, hbroken⟩ := hentered "5" nofun rfl
  exact ⟨hsize, hread, hdata, hwhole, hshown, (hbroken nofun).1⟩

/-- With a number as its input, the file of a machine is neither opened nor refused : the engine has
the machine of the file, the window has the states and the entry of the old one, and no error box is
shown. -/
theorem neither_opened_nor_refused :
    let d := runningDesk Catalog.binaryIncrement strayText
    let opened := exec (WindowControl.openFile "x") d
    opened.1 = .error .unusableValue ∧ opened.2.outside.dialogs = [] ∧
      d.engine.automaton = Catalog.binaryIncrement.automaton ∧
      opened.2.engine.automaton = ⟨.tm, [⟨"z", false, false⟩, ⟨"q0", true, false⟩], []⟩ ∧
      opened.2.outside.places.map Prod.fst =
        Catalog.binaryIncrement.automaton.states.map State.name ∧
      opened.2.outside.entry = d.outside.entry ∧
      d.timers = [(1, .settle 2)] ∧ opened.2.timers = [] := by
  intro d opened
  have hfiles : d.outside.room.files = ⟨[(["x"], .regular strayText)]⟩ := by decide +kernel
  have hread : d.outside.room.files.read "x" = .ok strayText := by
    rw [hfiles, read_single (by decide +kernel)]
  have hopen := WindowControl.exec_openFile_of_read (d := d) (by decide)
    (WindowControl.readFile_eq_ok (a := ⟨.tm, [⟨"z", false, false⟩, ⟨"q0", true, false⟩], []⟩) hread
      read_strayText rfl)
  have hopened : opened = _ := hopen
  rw [hopened]
  decide +kernel

end AutomatonLab
