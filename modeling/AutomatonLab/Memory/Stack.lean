import AutomatonLab.Text.Quoted

/-!
# The stack of a pushdown automaton

A `Stack` lists its symbols from the bottom to the top. Taking from an empty stack does nothing.
-/

namespace AutomatonLab

/-- The symbols on a stack, from the bottom to the top. -/
structure Stack where
  items : List Text
  deriving DecidableEq, Repr, Inhabited

namespace Stack

/-- A stack without symbols. -/
def empty : Stack := ⟨[]⟩

/-- The stack with one more symbol on its top. -/
def push (s : Stack) (symbol : Text) : Stack := ⟨s.items ++ [symbol]⟩

/-- The symbol on the top, none if the stack is empty. -/
def top? (s : Stack) : Option Text := s.items.getLast?

/-- The stack without its top. -/
def pop (s : Stack) : Stack := ⟨s.items.dropLast⟩

/-- There is no symbol on the stack. -/
def isEmpty (s : Stack) : Bool := s.items.isEmpty

/-- The number of symbols on the stack. -/
def size (s : Stack) : Nat := s.items.length

/-- The stack in the middle of a message. -/
def display (s : Stack) : Text := "Pilha([" ++ Text.quotedItems s.items ++ "])"

end Stack

end AutomatonLab
