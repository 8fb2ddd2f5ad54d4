import AutomatonLab.Text.Basic

/-!
# Log entries

What the library reports beside its results : a `LogEntry` has a level and a text. A reader of the
log chooses the lowest level that it keeps (`LogLevel.keeps`).
-/

namespace AutomatonLab

/-- How much an entry of the log matters. -/
inductive LogLevel where
  | debug
  | info
  | warning
  deriving DecidableEq, Repr, Inhabited

namespace LogLevel

/-- The levels by numbers, the higher the more they matter. -/
def rank : LogLevel → Nat
  | debug => 0
  | info => 1
  | warning => 2

/-- The entries of `level` are kept when `lowest` is the lowest level kept. -/
def keeps (lowest level : LogLevel) : Bool :=
  lowest.rank ≤ level.rank

/-- The name of a level. -/
def name : LogLevel → Text
  | debug => "DEBUG"
  | info => "INFO"
  | warning => "WARNING"

end LogLevel

/-- A line of the log. -/
structure LogEntry where
  level : LogLevel
  text : Text
  deriving DecidableEq, Repr, Inhabited

end AutomatonLab
