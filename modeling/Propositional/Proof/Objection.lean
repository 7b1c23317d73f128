import Propositional.Formula.Printer
import Propositional.Proof.Justification

/-!
# Objections

Why a rule does not yield what a line claims. An objection is a cause; its kind and its words are
functions of the cause.

## Main definitions

* `Objection`: the causes
* `Objection.kind`: whether the citation, the rule or the axiom is at fault
* `Objection.message`: the cause in words
* `Objection.quoted`: the formulas in those words
-/

namespace Propositional

/-- What is at fault. -/
inductive Objection.Kind where
  /-- A cited line is not there or is no formula. -/
  | reference
  /-- The rule does not apply, or yields something else. -/
  | rule
  /-- The formula is no instance of the axiom. -/
  | schema
  /-- The axiom is given by something that is not looked up at all. -/
  | lookup
  /-- The objection itself fails: the number it is to name is too long to be written. -/
  | oversized
deriving DecidableEq, Inhabited

/-- Why a rule does not yield what a line claims. -/
inductive Objection where
  /-- The citation names no earlier line. -/
  | noLine (n : Value)
  /-- The cited line did not parse. -/
  | illFormed (n : Value)
  | notImplication (n : Value)
  | notNegation (n : Value)
  | notConjunction (n : Value)
  | notDisjunction (n : Value)
  | notBiconditional (n : Value)
  /-- Modus ponens: the implication has another antecedent. -/
  | antecedent (implication : Value) (expected : Formula) (line : Value) (found : Formula)
  /-- Modus tollens: the negation is not that of the consequent. -/
  | consequent (negation : Value) (expected : Formula) (implication : Value)
  /-- Hypothetical syllogism: the two implications do not meet. -/
  | chain (left : Value) (consequent : Formula) (right : Value) (antecedent : Formula)
  /-- Disjunctive syllogism: neither side is negated. -/
  | neitherDisjunct (negation disjunction : Value)
  /-- An axiom follows from no lines. -/
  | notInferred
  /-- No rule is named. -/
  | noRule
  /-- There is no such axiom. -/
  | noAxiom (number : Value)
  /-- A list or an object is not looked up as an axiom's number. -/
  | badNumber (number : Value)
  /-- The formula is no instance of the axiom. -/
  | notInstance (claimed : Formula) (number : Value) (schema : Formula)
  /-- The rule yields another formula. -/
  | wrongConclusion (rule : String) (claimed expected : Formula)

namespace Objection

/-- What is at fault. Only a number that names no formula and no axiom can be too long: all other
objections name lines that are there. -/
def kind : Objection → Kind
  | .noLine n => if n.isShort then .reference else .oversized
  | .illFormed n => if n.isShort then .reference else .oversized
  | .noAxiom n => if n.isShort then .schema else .oversized
  | .notInstance _ _ _ => .schema
  | .badNumber _ => .lookup
  | _ => .rule

/-- The objection in words. -/
def message : Objection → String
  | .noLine n => "line " ++ n.plain ++ " has no formula to cite"
  | .illFormed n => "line " ++ n.plain ++ " holds no well-formed formula"
  | .notImplication n => "line " ++ n.plain ++ " is not an implication"
  | .notNegation n => "line " ++ n.plain ++ " is not a negation"
  | .notConjunction n => "line " ++ n.plain ++ " is not a conjunction"
  | .notDisjunction n => "line " ++ n.plain ++ " is not a disjunction"
  | .notBiconditional n => "line " ++ n.plain ++ " is not a biconditional"
  | .antecedent i expected n found =>
    "antecedent of line " ++ i.plain ++ " is " ++ expected.text ++ ", but line " ++ n.plain
      ++ " is " ++ found.text
  | .consequent n expected i =>
    "line " ++ n.plain ++ " must negate the consequent " ++ expected.text ++ " of line " ++ i.plain
  | .chain l c r a =>
    "consequent of line " ++ l.plain ++ " (" ++ c.text ++ ") does not match antecedent of line "
      ++ r.plain ++ " (" ++ a.text ++ ")"
  | .neitherDisjunct n d =>
    "line " ++ n.plain ++ " negates neither disjunct of line " ++ d.plain
  | .notInferred => "axiom instances are chosen, not inferred"
  | .noRule => "unknown justification Justification()"
  | .noAxiom n => "there is no axiom A" ++ n.plain
  | .badNumber n => "no axiom is numbered " ++ n.plain
  | .notInstance f n s =>
    f.text ++ " is not an instance of axiom A" ++ n.plain ++ " (" ++ s.text ++ ")"
  | .wrongConclusion rule claimed expected =>
    rule ++ " does not yield " ++ claimed.text ++ "; the conclusion should be " ++ expected.text

/-- The formulas that the objection quotes. -/
def quoted : Objection → List Formula
  | .antecedent _ expected _ found => [expected, found]
  | .consequent _ expected _ => [expected]
  | .chain _ c _ a => [c, a]
  | .notInstance claimed _ schema => [claimed, schema]
  | .wrongConclusion _ claimed expected => [claimed, expected]
  | _ => []

/-- Whether the rule is at fault; only then may another reading of the citations be tried. -/
def isRule (o : Objection) : Bool :=
  o.kind == .rule

end Objection

end Propositional
