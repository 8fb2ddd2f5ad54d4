import AutomatonLab.Automaton.Definition

/-!
# The catalog of examples

Six automata with a title and an input, and for each formalism the one that a window starts with.
Each is what `Automaton.ofJson` reads from its definition in the catalog (`Catalog.definitions`), with
nothing left out (`Catalog.map_ofJson_definitions`).
-/

namespace AutomatonLab

/-- An automaton of the catalog with its title and the input it is shown with. -/
structure Example where
  name : Text
  title : Text
  automaton : Automaton
  input : Text

namespace Catalog

/-- The words that end in `a`. -/
def endsWithA : Example where
  name := "ends-with-a"
  title := "AF: termina em 'a'"
  automaton :=
    { formalism := .fa
      states := [⟨"q0", true, false⟩, ⟨"q1", false, true⟩]
      transitions :=
        [⟨"q0", "q0", .fa "b"⟩, ⟨"q0", "q1", .fa "a"⟩,
          ⟨"q1", "q0", .fa "b"⟩, ⟨"q1", "q1", .fa "a"⟩] }
  input := "aabba"

/-- The words with an even number of `a`. -/
def evenA : Example where
  name := "even-a"
  title := "AF: número par de 'a'"
  automaton :=
    { formalism := .fa
      states := [⟨"even", true, true⟩, ⟨"odd", false, false⟩]
      transitions :=
        [⟨"even", "odd", .fa "a"⟩, ⟨"even", "even", .fa "b"⟩,
          ⟨"odd", "even", .fa "a"⟩, ⟨"odd", "odd", .fa "b"⟩] }
  input := "aabab"

/-- The words that begin with `ab`. -/
def startsWithAB : Example where
  name := "starts-with-ab"
  title := "AF: começa com 'ab'"
  automaton :=
    { formalism := .fa
      states :=
        [⟨"q0", true, false⟩, ⟨"q1", false, false⟩, ⟨"q2", false, true⟩, ⟨"q3", false, false⟩]
      transitions :=
        [⟨"q0", "q1", .fa "a"⟩, ⟨"q0", "q3", .fa "b"⟩, ⟨"q1", "q2", .fa "b"⟩,
          ⟨"q1", "q3", .fa "a"⟩, ⟨"q2", "q2", .fa "a"⟩, ⟨"q2", "q2", .fa "b"⟩,
          ⟨"q3", "q3", .fa "a"⟩, ⟨"q3", "q3", .fa "b"⟩] }
  input := "abaa"

/-- A stack for the palindromes of even length. The middle is guessed only where no symbol is pushed. -/
def palindrome : Example where
  name := "palindrome"
  title := "AP: palíndromos pares"
  automaton :=
    { formalism := .pda
      states := [⟨"q0", true, false⟩, ⟨"q1", false, false⟩, ⟨"q2", false, true⟩]
      transitions :=
        [⟨"q0", "q0", .pda "a" "ε" "a"⟩, ⟨"q0", "q0", .pda "b" "ε" "b"⟩,
          ⟨"q0", "q1", .pda "ε" "ε" "ε"⟩, ⟨"q1", "q1", .pda "a" "a" "ε"⟩,
          ⟨"q1", "q1", .pda "b" "b" "ε"⟩, ⟨"q1", "q2", .pda "ε" "ε" "ε"⟩] }
  input := "abba"

/-- One `X` is pushed for each `a`, and one is popped for each `b`. -/
def anbn : Example where
  name := "anbn"
  title := "AP: aⁿbⁿ"
  automaton :=
    { formalism := .pda
      states := [⟨"q0", true, false⟩, ⟨"q1", false, false⟩, ⟨"q2", false, true⟩]
      transitions :=
        [⟨"q0", "q1", .pda "a" "ε" "X"⟩, ⟨"q1", "q1", .pda "a" "ε" "X"⟩,
          ⟨"q1", "q2", .pda "b" "X" "ε"⟩, ⟨"q2", "q2", .pda "b" "X" "ε"⟩] }
  input := "aaabbb"

/-- The binary number on the tape plus one. -/
def binaryIncrement : Example where
  name := "tm-binary-add"
  title := "MT: incremento binário"
  automaton :=
    { formalism := .tm
      states := [⟨"q0", true, false⟩, ⟨"q1", false, false⟩, ⟨"q2", false, true⟩]
      transitions :=
        [⟨"q0", "q0", .tm "1" "1" "R"⟩, ⟨"q0", "q0", .tm "0" "0" "R"⟩,
          ⟨"q0", "q1", .tm "_" "_" "L"⟩, ⟨"q1", "q1", .tm "1" "0" "L"⟩,
          ⟨"q1", "q2", .tm "0" "1" "R"⟩, ⟨"q1", "q2", .tm "_" "1" "R"⟩] }
  input := "1011"

/-- The examples in the order they are offered. -/
def examples : List Example :=
  [endsWithA, evenA, startsWithAB, palindrome, anbn, binaryIncrement]

/-- The example that a window for the formalism starts with. -/
def initial : Formalism → Example
  | .pda => anbn
  | .tm => binaryIncrement
  | _ => endsWithA

/-- The example of the given name. -/
def load (name : Text) : Except Fault Example :=
  match examples.find? fun e => e.name == name with
  | some e => .ok e
  | none => .error (.missingKey name)

/-! ## Their definitions -/

/-- An item of the states of a definition. -/
def stateItem (name : Text) (initial final : Bool) : Json :=
  .obj [("name", .str name), ("initial", .bool initial), ("final", .bool final)]

/-- An item of the transitions of a definition. -/
def transitionItem (source target label : Text) : Json :=
  .obj [("from", .str source), ("to", .str target), ("label", .str label)]

/-- The definition of an automaton with a title and an input. -/
def definition (title formalism : Text) (states transitions : List Json) (input : Text) : Json :=
  .obj [("title", .str title), ("formalism", .str formalism), ("states", .arr states),
    ("transitions", .arr transitions), ("input", .str input)]

/-- The definitions of the examples by their names. -/
def definitions : List (Text × Json) :=
  [("ends-with-a", definition "AF: termina em 'a'" "fa"
      [stateItem "q0" true false, stateItem "q1" false true]
      [transitionItem "q0" "q0" "b", transitionItem "q0" "q1" "a", transitionItem "q1" "q0" "b",
       transitionItem "q1" "q1" "a"]
      "aabba"),
    ("even-a", definition "AF: número par de 'a'" "fa"
      [stateItem "even" true true, stateItem "odd" false false]
      [transitionItem "even" "odd" "a", transitionItem "even" "even" "b",
       transitionItem "odd" "even" "a", transitionItem "odd" "odd" "b"]
      "aabab"),
    ("starts-with-ab", definition "AF: começa com 'ab'" "fa"
      [stateItem "q0" true false, stateItem "q1" false false, stateItem "q2" false true,
       stateItem "q3" false false]
      [transitionItem "q0" "q1" "a", transitionItem "q0" "q3" "b", transitionItem "q1" "q2" "b",
       transitionItem "q1" "q3" "a", transitionItem "q2" "q2" "a", transitionItem "q2" "q2" "b",
       transitionItem "q3" "q3" "a", transitionItem "q3" "q3" "b"]
      "abaa"),
    ("palindrome", definition "AP: palíndromos pares" "pda"
      [stateItem "q0" true false, stateItem "q1" false false, stateItem "q2" false true]
      [transitionItem "q0" "q0" "a,ε→a", transitionItem "q0" "q0" "b,ε→b",
       transitionItem "q0" "q1" "ε,ε→ε", transitionItem "q1" "q1" "a,a→ε",
       transitionItem "q1" "q1" "b,b→ε", transitionItem "q1" "q2" "ε,ε→ε"]
      "abba"),
    ("anbn", definition "AP: aⁿbⁿ" "pda"
      [stateItem "q0" true false, stateItem "q1" false false, stateItem "q2" false true]
      [transitionItem "q0" "q1" "a,ε→X", transitionItem "q1" "q1" "a,ε→X",
       transitionItem "q1" "q2" "b,X→ε", transitionItem "q2" "q2" "b,X→ε"]
      "aaabbb"),
    ("tm-binary-add", definition "MT: incremento binário" "tm"
      [stateItem "q0" true false, stateItem "q1" false false, stateItem "q2" false true]
      [transitionItem "q0" "q0" "1→1,R", transitionItem "q0" "q0" "0→0,R",
       transitionItem "q0" "q1" "_→_,L", transitionItem "q1" "q1" "1→0,L",
       transitionItem "q1" "q2" "0→1,R", transitionItem "q1" "q2" "_→1,R"]
      "1011")]

/-- The examples are what their definitions say, and no transition of them is left out. -/
theorem map_ofJson_definitions :
    definitions.map (fun (name, data) =>
        (name, data.member? "title", data.member? "input", Automaton.ofJson data)) =
      examples.map fun x =>
        (x.name, some (.str x.title), some (.str x.input), ⟨.ok x.automaton, []⟩) := by
  rfl

end Catalog

end AutomatonLab
