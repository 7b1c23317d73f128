import Propositional.Document.Value
import Propositional.Formula.Reader

/-!
# Schemas and the Hilbert axioms

A schema is a formula whose metavariables stand for formulas. Matching a schema against a formula
finds what its metavariables stand for; it threads a substitution from left to right, so that a
metavariable stands for the same formula everywhere. Instantiating puts the formulas in.

## Main definitions

* `Substitution`: what metavariables stand for, in the order in which they were found
* `Formula.matchWith`: extends a substitution so that a schema becomes a formula
* `Formula.instantiate`: the formula that a substitution makes of a schema
* `Hilbert.schema?`: the three axiom schemas by number
* `Hilbert.build`: an instance of an axiom from the texts of its parts
-/

namespace Propositional

/-- What metavariables stand for. -/
abbrev Substitution := Table Formula

/-- A metavariable that stands for nothing. -/
structure Unassigned where
  name : String
deriving DecidableEq, Inhabited

/-- The missing assignment, in words. -/
def Unassigned.message (u : Unassigned) : String :=
  "missing instantiation for " ++ u.name

namespace Formula

/-- Extends a substitution so that it makes the target of the schema. A metavariable is bound
where it first occurs and must meet an equal formula everywhere else; other variables and the
connectives match only themselves. -/
def matchWith : Formula → Formula → Substitution → Option Substitution
  | .var name, target, s =>
    if isMetavariable name then
      match s.get? name with
      | none => some (s.set name target)
      | some bound => if bound = target then some s else none
    else if target = .var name then some s else none
  | .neg f, .neg g, s => matchWith f g s
  | .bin op l r, .bin op' l' r', s =>
    if op = op' then
      match matchWith l l' s with
      | none => none
      | some s' => matchWith r r' s'
    else none
  | _, _, _ => none

/-- Puts the formulas of a substitution in place of the metavariables of a schema. -/
def instantiate (s : Substitution) : Formula → Except Unassigned Formula
  | .var name =>
    if isMetavariable name then
      match s.get? name with
      | none => .error ⟨name⟩
      | some f => .ok f
    else .ok (.var name)
  | .neg f =>
    match instantiate s f with
    | .error e => .error e
    | .ok f' => .ok (.neg f')
  | .bin op l r =>
    match instantiate s l with
    | .error e => .error e
    | .ok l' =>
      match instantiate s r with
      | .error e => .error e
      | .ok r' => .ok (.bin op l' r')

end Formula

namespace Hilbert

/-- The first axiom, `α->(β->α)`. -/
def first : Formula :=
  .imp (.var "α") (.imp (.var "β") (.var "α"))

/-- The second axiom, `(α->(β->γ))->((α->β)->(α->γ))`. -/
def second : Formula :=
  .imp (.imp (.var "α") (.imp (.var "β") (.var "γ")))
    (.imp (.imp (.var "α") (.var "β")) (.imp (.var "α") (.var "γ")))

/-- The third axiom, `(¬β->¬α)->((¬β->α)->β)`. -/
def third : Formula :=
  .imp (.imp (.neg (.var "β")) (.neg (.var "α")))
    (.imp (.imp (.neg (.var "β")) (.var "α")) (.var "β"))

/-- The axiom schema of a number. The number may be any value of the size of one, two or three. -/
def schema? (n : Value) : Option Formula :=
  if n.equalsInteger 1 then some first
  else if n.equalsInteger 2 then some second
  else if n.equalsInteger 3 then some third
  else none

/-- Why no instance of an axiom is made. -/
inductive BuildError where
  /-- There is no axiom of the number. -/
  | noSuchAxiom (n : Value)
  /-- A list or an object is not looked up as a number. -/
  | notANumber (n : Value)
  /-- A part is no formula. -/
  | badPart (e : SyntaxError)
  /-- A part is missing. -/
  | missingPart (u : Unassigned)

/-- The metavariable that a part is given for, by its English name or its letter. -/
def letter (name : String) : String :=
  if name == "alpha" then "α"
  else if name == "beta" then "β"
  else if name == "gamma" then "γ"
  else name

/-- Reads the parts in order; a part without text is left out. -/
def readParts (maxDepth : Int) : Table (Option String) → Substitution →
    Except SyntaxError Substitution
  | [], s => .ok s
  | (_, none) :: parts, s => readParts maxDepth parts s
  | (name, some text) :: parts, s =>
    match Formula.parse maxDepth text with
    | .error e => .error e
    | .ok f => readParts maxDepth parts (s.set (letter name) f)

/-- An instance of an axiom from the texts of its parts. -/
def build (maxDepth : Int) (n : Value) (parts : Table (Option String)) :
    Except BuildError Formula :=
  if !n.isScalar then .error (.notANumber n)
  else
    match schema? n with
    | none => .error (.noSuchAxiom n)
    | some schema =>
      match readParts maxDepth parts [] with
      | .error e => .error (.badPart e)
      | .ok s =>
        match schema.instantiate s with
        | .error u => .error (.missingPart u)
        | .ok f => .ok f

end Hilbert

end Propositional
