import AutomatonLab.Configuration

/-!
# One decision of a run

`Configuration.decision` looks at a configuration and either takes a transition or halts the run
with a verdict. A finite or pushdown automaton halts at the end of the input, accepting in a final
state, and when no transition applies; a Turing machine accepts as soon as its state is final, and
halts without a verdict when no transition applies. `Decision.notes` is what the log says about it.
-/

namespace AutomatonLab

/-- The status of a run. -/
inductive Status where
  | ready
  | running
  | accepted
  | rejected
  | stuck
  deriving DecidableEq, Repr, Inhabited

namespace Status

/-- The name of a status. -/
def name : Status → Text
  | ready => "PRONTO"
  | running => "EXECUTANDO"
  | accepted => "ACEITO"
  | rejected => "REJEITADO"
  | stuck => "SEM_TRANSICAO"

/-- The run has ended. -/
def isTerminal : Status → Bool
  | ready => false
  | running => false
  | accepted => true
  | rejected => true
  | stuck => true

/-- The statuses in the order of declaration. -/
def all : List Status := [ready, running, accepted, rejected, stuck]

end Status

/-- What comes next : a transition is taken, or the run ends. -/
inductive Decision where
  | take (t : Transition)
  | halt (status : Status)
  deriving DecidableEq, Repr

namespace Configuration

/-- The state is final. -/
def isFinal (a : Automaton) (c : Configuration) : Bool :=
  c.state.any a.isFinal

/-- The transition that is taken if the run does not halt for another reason. -/
def chosen? (a : Automaton) (c : Configuration) : Except Fault (Option Transition) :=
  (c.applicable a).map List.head?

/-- A run over an input ends where the input ends. -/
def decisionOnInput (a : Automaton) (c : Configuration) : Except Fault Decision :=
  if c.atEnd then .ok (.halt (if c.isFinal a then .accepted else .rejected))
  else do
    match ← c.chosen? a with
    | some t => return .take t
    | none => return .halt .rejected

/-- A run on a tape ends in a final state. -/
def decisionOnTape (a : Automaton) (c : Configuration) : Except Fault Decision :=
  if c.isFinal a then .ok (.halt .accepted)
  else do
    match ← c.chosen? a with
    | some t => return .take t
    | none => return .halt .stuck

/-- What happens next in a configuration. -/
def decision (a : Automaton) (c : Configuration) : Except Fault Decision :=
  match a.formalism with
  | .fa => c.decisionOnInput a
  | .pda => c.decisionOnInput a
  | .tm => c.decisionOnTape a
  | .other code => .error (.unknownFormalism (Text.quoted code))

end Configuration

namespace Decision

/-- An entry of the log about a detail. -/
def debug (text : Text) : LogEntry := ⟨.debug, text⟩

/-- An entry of the log about a result. -/
def info (text : Text) : LogEntry := ⟨.info, text⟩

/-- What the log says about a transition that is taken. -/
def taken (t : Transition) : LogEntry :=
  match t.label with
  | .fa symbol => debug ("Leu " ++ symbol ++ ": " ++ t.source ++ " → " ++ t.target ++ ".")
  | .pda .. => debug ("AP " ++ t.source ++ " → " ++ t.target ++ " usando " ++ t.label.text ++ ".")
  | .tm _ write direction =>
    debug ("MT " ++ t.source ++ " → " ++ t.target ++ " escreveu " ++ write ++ ", moveu "
      ++ direction ++ ".")

/-- What the log says when no transition applies. -/
def blocked (a : Automaton) (c : Configuration) : List LogEntry :=
  match a.formalism with
  | .fa => [info ("Sem transição para " ++ Text.quoted (c.remaining.take 1)
      ++ " a partir de " ++ c.stateText ++ ".")]
  | .pda => [info ("Nenhuma transição válida do AP a partir de " ++ c.stateText ++ ".")]
  | .tm => [info ("MT parou: sem transição para " ++ Text.quoted c.scanned ++ " em "
      ++ c.stateText ++ ".")]
  | .other _ => []

/-- The run halts because its input has been read, or in a final state of a tape machine. -/
def isCompletion (a : Automaton) (c : Configuration) : Bool :=
  if a.formalism = .tm then c.isFinal a else c.atEnd

/-- What the log says about a decision in the configuration `c`. -/
def notes (a : Automaton) (c : Configuration) : Decision → List LogEntry
  | take t => [taken t]
  | halt status =>
    (if isCompletion a c then [] else blocked a c)
      ++ [info ("Execução terminou em " ++ c.stateText ++ ": " ++ status.name ++ ".")]

end Decision

end AutomatonLab
