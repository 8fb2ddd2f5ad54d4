import AutomatonLab.Automaton.Validity
import AutomatonLab.FileStore
import AutomatonLab.Json.Reader
import AutomatonLab.Log

/-!
# Faults and outcomes

A `Fault` is why an operation ended without a result. An `Outcome` is a result or a fault, with what
was logged on the way; the log is kept in both cases.
-/

namespace AutomatonLab

/-- Why an operation ended without a result. -/
inductive Fault where
  | malformed (defect : Defect)
  | badLabel (error : LabelError)
  /-- No formalism has the given code; `shown` is its display. -/
  | unknownFormalism (shown : Text)
  /-- A state of that name is there already. -/
  | nameInUse (name : Text)
  /-- Something was looked up by a key that is not there. -/
  | missingKey (key : Text)
  /-- A value of the wrong type stands where it cannot be used. -/
  | unusableValue
  /-- A symbol was asked for before the first one of the input. -/
  | beforeInput
  /-- A label of another formalism was to be looked at. -/
  | foreignLabel
  | notJson (error : Json.ReadError)
  | file (path : String) (error : FileError)
  /-- A text with a half of a character was to be kept in a file. -/
  | unstorable
  /-- A picture was to have a side of negative length. -/
  | negativeSide
  /-- A length is greater than all numbers it is computed with. -/
  | tooLarge
  /-- A tape was to have more cells than there is room for. -/
  | noRoom
  /-- A listener refused an event. -/
  | listener (text : Text)
  /-- Calls were nested too deep. -/
  | tooDeep
  /-- The allowance of steps was used up. -/
  | exhausted
  deriving DecidableEq, Repr

/-- What is said of a fault. -/
def Fault.message : Fault → Text
  | malformed defect => defect.message
  | badLabel error => error.message
  | unknownFormalism shown => unknownFormalismMessage shown
  | nameInUse name => "O nome '" ++ name ++ "' já está em uso."
  | missingKey key => Text.quoted key
  | unusableValue => "value of an unusable type"
  | beforeInput => "no symbol before the input"
  | foreignLabel => "label of another formalism"
  | notJson error => error.message
  | file path error => error.message path
  | unstorable => "text that no file can keep"
  | negativeSide => "Width and height must be >= 0"
  | tooLarge => "number too large"
  | noRoom => "no room for more cells"
  | listener text => text
  | tooDeep => "nested too deep"
  | exhausted => "too many steps"

/-- A result or a fault, with the log of the operation. -/
structure Outcome (α : Type) where
  result : Except Fault α
  log : List LogEntry

namespace Outcome

/-- The operation that does nothing but write to the log. -/
def note (entries : List LogEntry) : Outcome Unit := ⟨.ok (), entries⟩

/-- The operation that ends at once, without a result. -/
def fail {α : Type} (fault : Fault) : Outcome α := ⟨.error fault, []⟩

/-- The operation that has the given result and writes nothing to the log. -/
def ofExcept {α : Type} (result : Except Fault α) : Outcome α := ⟨result, []⟩

/-- One operation after the other : a fault ends the whole, and the entries so far stay in the
log. -/
instance : Monad Outcome where
  pure a := ⟨.ok a, []⟩
  bind x f :=
    match x.result with
    | .error fault => ⟨.error fault, x.log⟩
    | .ok a => ⟨(f a).result, x.log ++ (f a).log⟩

end Outcome

end AutomatonLab
