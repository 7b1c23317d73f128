import Propositional.Document.Value

/-!
# Malformed documents

Why a document or a text is not the step, proof or exercise it should be. The words of each cause
are its `message`.

## Main definitions

* `ExerciseFault`: what is wrong inside an exercise
* `Malformed`: what is wrong with a document
-/

namespace Propositional

/-- What is wrong inside an exercise. -/
inductive ExerciseFault where
  /-- A field is missing. -/
  | missing (field : String)
  /-- A value that should have fields has none. -/
  | noFields (v : Value)
  /-- A value that should be a list cannot be run through. -/
  | notIterable (v : Value)
  /-- The name of a rule is no text. -/
  | ruleName (v : Value)
  /-- The text of an axiom's number writes no integer. -/
  | integerText (s : String)
  /-- The text of an axiom's number writes an integer with too many digits. -/
  | integerSize (digits : Nat)
  /-- The number of an axiom is neither a number nor a text. -/
  | integerKind (v : Value)
  /-- The number of an axiom is a word that stands for no number. -/
  | noNumber

/-- The fault of an exercise in words. A text that writes no integer is shown up to two hundred
characters. -/
def ExerciseFault.message : ExerciseFault → String
  | .missing field => Text.quoted field
  | .noFields v => "'" ++ v.kindName ++ "' object has no attribute 'get'"
  | .notIterable v => "'" ++ v.kindName ++ "' object is not iterable"
  | .ruleName v => "'" ++ v.kindName ++ "' object has no attribute 'upper'"
  | .integerText s =>
    "invalid literal for int() with base 10: " ++ String.ofList ((Text.quoted s).toList.take 200)
  | .integerSize n =>
    "Exceeds the limit (" ++ Text.integer Text.digitLimit
      ++ " digits) for integer string conversion: value has " ++ Text.integer n
      ++ " digits; use sys.set_int_max_str_digits() to increase the limit"
  | .integerKind v =>
    "int() argument must be a string, a bytes-like object or a real number, not '"
      ++ v.kindName ++ "'"
  | .noNumber => "cannot convert float NaN to integer"

/-- What is wrong with a document. -/
inductive Malformed where
  | justification
  | unknownRule (given : Value)
  | axiomNumber
  | references (rule : String)
  | arity (rule : String) (expected found : Nat)
  | side
  | direction
  | step
  | formula (line : Int)
  | label (line : Int)
  | steps
  | given
  | goal
  | tag (text : String)
  | proofLine (text : String)
  | proofText
  | exercise (fault : ExerciseFault)
  | catalog
  | fieldText (field : String)
  | fieldTexts (field : String)

/-- The fault of a document in words. -/
def Malformed.message : Malformed → String
  | .justification => "a justification must be a JSON object"
  | .unknownRule v => "unknown rule " ++ v.display
  | .axiomNumber => "AX needs \"axiom\": 1, 2 or 3"
  | .references rule => rule ++ ": refs must be a list of line numbers"
  | .arity rule expected found =>
    rule ++ " cites " ++ Text.integer expected ++ " line(s), got " ++ Text.integer found
  | .side => "SIMP needs \"pick\": \"left\" or \"right\""
  | .direction => "IFF needs \"dir\": \"L->R\" or \"R->L\""
  | .step => "a step must be a JSON object"
  | .formula line => "step " ++ Text.integer line ++ ": missing formula text"
  | .label line => "step " ++ Text.integer line ++ ": line must be an integer"
  | .steps => "steps must be a JSON list"
  | .given => "given must be a list of formula texts"
  | .goal => "goal must be formula text"
  | .tag text => "cannot read justification " ++ Text.quoted text
  | .proofLine text => "cannot read proof line " ++ Text.quoted text
  | .proofText => "a plain-text proof must be a string"
  | .exercise fault => "malformed exercise: " ++ fault.message
  | .catalog => "an exercise file holds a JSON list"
  | .fieldText field => field ++ " must be formula text"
  | .fieldTexts field => field ++ " must be a list of formula texts"

end Propositional
