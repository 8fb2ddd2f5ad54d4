import AutomatonLab.Text.Quoted

/-!
# Labels of transitions

A transition carries a label of its formalism : a finite automaton reads a symbol, a pushdown
automaton reads, pops and pushes, a Turing machine reads, writes and moves (`Label`). Symbols are
texts; the text `epsilon` in a label of a pushdown automaton stands for no symbol. `Label.text` is
the written form of a label, which `Label.parse` reads.
-/

namespace AutomatonLab

/-- The kinds of automata. A code that is none of the three can be kept and written down, but no
label and no run belongs to it. -/
inductive Formalism where
  | fa
  | pda
  | tm
  | other (code : Text)
  deriving DecidableEq, Repr, Inhabited

namespace Formalism

/-- The code of a formalism in a definition. -/
def code : Formalism → Text
  | fa => "fa"
  | pda => "pda"
  | tm => "tm"
  | other code => code

/-- The formalisms with labels and runs of their own. -/
def all : List Formalism := [fa, pda, tm]

/-- The formalism with the given code, one of the three. -/
def ofCode? (code : Text) : Option Formalism :=
  all.find? fun f => f.code == code

/-- The formalism with the given code, whatever it is. -/
def ofCode (code : Text) : Formalism :=
  (ofCode? code).getD (other code)

/-- The name of the kind of automaton. -/
def name : Formalism → Text
  | fa => "Autômato Finito"
  | pda => "Autômato de Pilha"
  | tm => "Máquina de Turing"
  | other code => code

end Formalism

/-- What a transition reads and does. -/
inductive Label where
  | fa (symbol : Text)
  | pda (input pop push : Text)
  | tm (read write direction : Text)
  deriving DecidableEq, Repr, Inhabited

namespace Label

/-- No symbol : nothing is read, popped or pushed. -/
def epsilon : Text := "ε"

/-- The written forms of `epsilon`. -/
def epsilonAliases : List Text := ["", "&", epsilon]

/-- The arrow of the written form. -/
def arrow : CodePoint := '→'

/-- The two characters that may stand for the arrow. -/
def asciiArrow : Text := "->"

/-- The direction to the cell before. -/
def left : Text := "L"

/-- The direction to the next cell. -/
def right : Text := "R"

/-- The direction to the same cell. -/
def stay : Text := "S"

/-- The written directions, in upper case, with what they mean. -/
def directions : List (Text × Text) :=
  [(left, left), (right, right), (stay, stay), ("N", stay)]

/-- The formalism that a label belongs to. -/
def formalism : Label → Formalism
  | fa _ => .fa
  | pda .. => .pda
  | tm .. => .tm

/-- The written form of a label. -/
def text : Label → Text
  | fa symbol => symbol
  | pda input pop push => input ++ "," ++ pop ++ [arrow] ++ push
  | tm read write direction => read ++ [arrow] ++ write ++ "," ++ direction

/-- A label in the middle of a message, where it stands as a value with named parts. -/
def display : Label → Text
  | fa symbol => "RotuloAF(symbol=" ++ Text.quoted symbol ++ ")"
  | pda input pop push =>
    "RotuloAP(input=" ++ Text.quoted input ++ ", pop=" ++ Text.quoted pop
      ++ ", push=" ++ Text.quoted push ++ ")"
  | tm read write direction =>
    "RotuloMT(read=" ++ Text.quoted read ++ ", write=" ++ Text.quoted write
      ++ ", direction=" ++ Text.quoted direction ++ ")"

end Label

end AutomatonLab
