import AutomatonLab.Fault

/-!
# What an entry takes

A text is entered as it is. Other values can be given to an entry as well, and the toolkit decides
how they read there. An `EntryRule` is such a decision; nothing is known of it but that `null` is
never entered. The rule of a toolkit that takes texts only is `EntryRule.textsOnly`, and
`EntryRule.numerals` is one for integers and truth values.
-/

namespace AutomatonLab

/-- What is read in an entry to which a value was given that is no text, or why the value is
refused. -/
structure EntryRule where
  /-- The text that is entered for a value. -/
  enter : Json → Except Fault Text
  /-- No toolkit enters `null`. -/
  refuses_null : ∃ fault, enter .null = .error fault

namespace EntryRule

/-- Only texts are entered. -/
def textsOnly : EntryRule where
  enter _ := .error .unusableValue
  refuses_null := ⟨_, rfl⟩

/-- An integer is entered by its digits, and a truth value as one or zero. -/
def numerals : EntryRule where
  enter
    | .int n => .ok (toString n)
    | .bool b => .ok (if b then "1" else "0")
    | _ => .error .unusableValue
  refuses_null := ⟨_, rfl⟩

end EntryRule

end AutomatonLab
