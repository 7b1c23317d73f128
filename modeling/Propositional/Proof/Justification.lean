import Propositional.Document.Value

/-!
# Justifications

A justification names the rule by which a line of a proof follows and the lines that it cites,
counted from one. What a line is cited by is kept as the document gave it: only whole numbers
name lines, and the rules report anything else as a bad reference.

## Main definitions

* `Side`, `Direction`: which part of a conjunction or biconditional is taken
* `Justification`: a rule with the lines it cites
* `Justification.rule`, `Justification.references`: its name and its citations
* `Justification.tag`: its short written form
* `Justification.isShort`: whether the numbers in it can be written
-/

namespace Propositional

/-- A side of a conjunction. -/
inductive Side where
  | left
  | right
deriving DecidableEq, Inhabited

/-- A direction of a biconditional. -/
inductive Direction where
  | leftToRight
  | rightToLeft
deriving DecidableEq, Inhabited

/-- The written form of a side. -/
def Side.word : Side → String
  | .left => "left"
  | .right => "right"

/-- The letter of a side. -/
def Side.letter : Side → String
  | .left => "L"
  | .right => "R"

/-- The written form of a direction. -/
def Direction.word : Direction → String
  | .leftToRight => "L->R"
  | .rightToLeft => "R->L"

/-- The rule by which a line follows, and the lines that it cites. -/
inductive Justification where
  /-- Names no rule. -/
  | bare
  /-- An instance of a Hilbert axiom, by its number. -/
  | ax (number : Value)
  /-- Modus ponens: from `X` and `X->Y` follows `Y`. -/
  | mp (antecedent implication : Value)
  /-- Modus tollens: from `X->Y` and `¬Y` follows `¬X`. -/
  | mt (implication negation : Value)
  /-- Hypothetical syllogism: from `X->Y` and `Y->Z` follows `X->Z`. -/
  | hs (left right : Value)
  /-- Adjunction: from `X` and `Y` follows `X∧Y`. -/
  | adj (left right : Value)
  /-- Disjunctive syllogism: from `X∨Y` and the negation of one side follows the other. -/
  | ds (disjunction negation : Value)
  /-- Simplification: from `X∧Y` follows either side. -/
  | simp (source : Value) (side : Side)
  /-- Elimination of a biconditional: from `X↔Y` follows the implication in either direction. -/
  | iff (source : Value) (direction : Direction)
deriving Inhabited

namespace Justification

/-- The name of the rule. -/
def rule : Justification → String
  | .bare => ""
  | .ax _ => "AX"
  | .mp _ _ => "MP"
  | .mt _ _ => "MT"
  | .hs _ _ => "HS"
  | .adj _ _ => "ADJ"
  | .ds _ _ => "DS"
  | .simp _ _ => "SIMP"
  | .iff _ _ => "IFF"

/-- The lines that are cited, in order. -/
def references : Justification → List Value
  | .bare => []
  | .ax _ => []
  | .mp a b => [a, b]
  | .mt a b => [a, b]
  | .hs a b => [a, b]
  | .adj a b => [a, b]
  | .ds a b => [a, b]
  | .simp a _ => [a]
  | .iff a _ => [a]

/-- The short written form: an axiom by its number, any other rule with the lines it cites. -/
def tag (j : Justification) : String :=
  match j with
  | .ax n => "A" ++ n.plain
  | .simp n side => "SIMP " ++ n.plain ++ "." ++ side.letter
  | .iff n direction => "IFF " ++ n.plain ++ " " ++ direction.word
  | j =>
    let cited := String.intercalate "," (j.references.map Value.plain)
    if cited == "" then j.rule else j.rule ++ " " ++ cited

/-- The numbers in the written form: that of an axiom, or those of the lines that are cited. -/
def numbers : Justification → List Value
  | .ax n => [n]
  | j => j.references

/-- Whether no number is too long to be written. -/
def isShort (j : Justification) : Bool :=
  j.numbers.all Value.isShort

end Justification

end Propositional
