import AutomatonLab.Bench.Session
import AutomatonLab.Icon.Coverage
import AutomatonLab.Launcher.Construction
import AutomatonLab.Window.Construction
import AutomatonLab.Proofs.Computation
import AutomatonLab.Proofs.Calls
import AutomatonLab.Proofs.Record
import AutomatonLab.Proofs.Continuation
import AutomatonLab.Proofs.AutomaticRun
import AutomatonLab.Proofs.Completion
import AutomatonLab.Proofs.Routine
import AutomatonLab.Proofs.Verdict
import AutomatonLab.Proofs.Acknowledgement
import AutomatonLab.Proofs.Renumbering
import AutomatonLab.Proofs.Renewal
import AutomatonLab.Proofs.Limit
import AutomatonLab.Proofs.Bounds
import AutomatonLab.Proofs.OneWayTape
import AutomatonLab.Proofs.AcceptingPath
import AutomatonLab.Proofs.Definition
import AutomatonLab.Proofs.WrittenLabel
import AutomatonLab.Proofs.JsonText
import AutomatonLab.Proofs.Reloading
import AutomatonLab.Proofs.Refusal
import AutomatonLab.Proofs.Interruption
import AutomatonLab.Proofs.Requests
import AutomatonLab.Proofs.StaleTimers
import AutomatonLab.Proofs.Reception
import AutomatonLab.Proofs.Drawing
import AutomatonLab.Proofs.Display
import AutomatonLab.Proofs.WindowSession
import AutomatonLab.Proofs.Outside
import AutomatonLab.Proofs.RefusedInstall
import AutomatonLab.Proofs.Depiction
import AutomatonLab.Proofs.Building
import AutomatonLab.Proofs.StoredText
import AutomatonLab.Proofs.Tending
import AutomatonLab.Proofs.OpenedFile
import AutomatonLab.Proofs.SavedSession
import AutomatonLab.Proofs.NextTransition
import AutomatonLab.Proofs.Finish
import AutomatonLab.Proofs.Termination
import AutomatonLab.Proofs.CountedLetters
import AutomatonLab.Proofs.BinaryIncrement
import AutomatonLab.Proofs.Stages
import AutomatonLab.Proofs.Languages
import AutomatonLab.Proofs.Pruning
import AutomatonLab.Proofs.Lookahead
import AutomatonLab.Proofs.Additions
import AutomatonLab.Proofs.Selection
import AutomatonLab.Proofs.AnyInput
import AutomatonLab.Proofs.Marker
import AutomatonLab.Proofs.DesktopDiagram
