import AutomatonLab.Engine.Basic

/-!
# Replies

The commands of a session and of a window answer with a `Reply`, which is nothing, a plain value, or
something that was asked for.
-/

namespace AutomatonLab

/-- What a command answers. -/
inductive Reply where
  | done
  | flag (b : Bool)
  | count (n : Nat)
  | handle (n : Option Nat)
  | text (s : Option Text)
  | texts (items : List Text)
  | numbers (items : List Int)
  | state (s : Option State)
  | transition (t : Option Transition)
  | transitions (items : List Transition)
  | added (t : Transition)
  | event (ev : Option Event)
  | events (items : List Event)
  | document (v : Json)

end AutomatonLab
