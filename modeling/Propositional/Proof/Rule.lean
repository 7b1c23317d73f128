import Propositional.Proof.Objection
import Propositional.Schema

/-!
# Rules of inference

What each rule yields from the lines it cites. Hypothetical syllogism, adjunction and disjunctive
syllogism take their two lines in either order; modus ponens and modus tollens do not, but when a
line is being inferred rather than checked their citations are put in order.

## Main definitions

* `Lines`, `Lines.cite`: the lines so far, and a citation of one
* `Conclusions`: what a rule yields, the preferred formula first
* `Justification.conclusions`: what a justification yields from the lines so far
* `Justification.validate`: whether a formula follows by a justification
* `Justification.infer`: the formula that follows, with the citations in order
-/

namespace Propositional

/-- The lines of a proof so far; a line that did not parse holds no formula. -/
abbrev Lines := List (Option Formula)

/-- The formula on a cited line, counted from one. -/
def Lines.cite (lines : Lines) (n : Value) : Except Objection Formula :=
  match n.wholeNumber? with
  | none => .error (.noLine n)
  | some k =>
    if k < 1 ∨ (lines.length : Int) < k then .error (.noLine n)
    else
      match lines[k.toNat - 1]? with
      | some (some f) => .ok f
      | some none => .error (.illFormed n)
      | none => .error (.noLine n)

/-- What a rule yields: a preferred formula, and perhaps another. -/
structure Conclusions where
  preferred : Formula
  others : List Formula := []
deriving DecidableEq, Inhabited

/-- All the formulas that a rule yields. -/
def Conclusions.toList (c : Conclusions) : List Formula :=
  c.preferred :: c.others

namespace Rule

/-- The two sides of a cited implication. -/
def expectImplication (n : Value) : Formula → Except Objection (Formula × Formula)
  | .imp a b => .ok (a, b)
  | _ => .error (.notImplication n)

/-- The operand of a cited negation. -/
def expectNegation (n : Value) : Formula → Except Objection Formula
  | .neg f => .ok f
  | _ => .error (.notNegation n)

/-- The two sides of a cited disjunction. -/
def expectDisjunction (n : Value) : Formula → Except Objection (Formula × Formula)
  | .or a b => .ok (a, b)
  | _ => .error (.notDisjunction n)

/-- The two sides of a cited conjunction. -/
def expectConjunction (n : Value) : Formula → Except Objection (Formula × Formula)
  | .and a b => .ok (a, b)
  | _ => .error (.notConjunction n)

/-- The two sides of a cited biconditional. -/
def expectBiconditional (n : Value) : Formula → Except Objection (Formula × Formula)
  | .iff a b => .ok (a, b)
  | _ => .error (.notBiconditional n)

/-- Modus ponens. -/
def modusPonens (lines : Lines) (antecedent implication : Value) : Except Objection Formula := do
  let a ← lines.cite antecedent
  let f ← lines.cite implication
  let (x, y) ← expectImplication implication f
  if x = a then .ok y else .error (.antecedent implication x antecedent a)

/-- Modus tollens. -/
def modusTollens (lines : Lines) (implication negation : Value) : Except Objection Formula := do
  let f ← lines.cite implication
  let (x, y) ← expectImplication implication f
  let g ← lines.cite negation
  let z ← expectNegation negation g
  if y = z then .ok (.neg x) else .error (.consequent negation y implication)

/-- Hypothetical syllogism, the implications in order. -/
def chain (lines : Lines) (left right : Value) : Except Objection Formula := do
  let f ← lines.cite left
  let (x, y) ← expectImplication left f
  let g ← lines.cite right
  let (y', z) ← expectImplication right g
  if y = y' then .ok (.imp x z) else .error (.chain left y right y')

/-- Adjunction, the conjuncts in order. -/
def adjoin (lines : Lines) (left right : Value) : Except Objection Formula := do
  let f ← lines.cite left
  let g ← lines.cite right
  .ok (.and f g)

/-- Disjunctive syllogism, the disjunction first. -/
def disjoin (lines : Lines) (disjunction negation : Value) : Except Objection Formula := do
  let f ← lines.cite disjunction
  let (x, y) ← expectDisjunction disjunction f
  let g ← lines.cite negation
  let z ← expectNegation negation g
  if z = x then .ok y
  else if z = y then .ok x
  else .error (.neitherDisjunct negation disjunction)

/-- Simplification. -/
def simplify (lines : Lines) (source : Value) (side : Side) : Except Objection Formula := do
  let f ← lines.cite source
  let (x, y) ← expectConjunction source f
  match side with
  | .left => .ok x
  | .right => .ok y

/-- Elimination of a biconditional. -/
def eliminate (lines : Lines) (source : Value) (direction : Direction) :
    Except Objection Formula := do
  let f ← lines.cite source
  let (x, y) ← expectBiconditional source f
  match direction with
  | .leftToRight => .ok (.imp x y)
  | .rightToLeft => .ok (.imp y x)

/-- A rule that yields one formula. -/
def single (r : Except Objection Formula) : Except Objection Conclusions :=
  match r with
  | .error o => .error o
  | .ok f => .ok { preferred := f }

/-- A rule that takes its lines in either order: the order given is preferred, and an order that
only the rule objects to is passed over. -/
def eitherOrder (pair : Value → Value → Except Objection Formula) (a b : Value) :
    Except Objection Conclusions :=
  match pair a b with
  | .ok f =>
    match pair b a with
    | .ok g => .ok { preferred := f, others := [g] }
    | .error o => if o.isRule then .ok { preferred := f } else .error o
  | .error o =>
    if o.isRule then
      match pair b a with
      | .ok g => .ok { preferred := g }
      | .error o' => if o'.isRule then .error o else .error o'
    else .error o

end Rule

namespace Justification

/-- What a justification yields from the lines so far. -/
def conclusions (lines : Lines) : Justification → Except Objection Conclusions
  | .mp a b => Rule.single (Rule.modusPonens lines a b)
  | .mt a b => Rule.single (Rule.modusTollens lines a b)
  | .hs a b => Rule.eitherOrder (Rule.chain lines) a b
  | .adj a b => Rule.eitherOrder (Rule.adjoin lines) a b
  | .ds a b => Rule.eitherOrder (Rule.disjoin lines) a b
  | .simp n side => Rule.single (Rule.simplify lines n side)
  | .iff n direction => Rule.single (Rule.eliminate lines n direction)
  | .ax _ => .error .notInferred
  | .bare => .error .noRule

/-- Whether a formula is an instance of the axiom of a number. -/
def validateInstance (number : Value) (claimed : Formula) : Except Objection Unit :=
  if !number.isScalar then .error (.badNumber number)
  else
    match Hilbert.schema? number with
    | none => .error (.noAxiom number)
    | some schema =>
      match schema.matchWith claimed [] with
      | none => .error (.notInstance claimed number schema)
      | some _ => .ok ()

/-- Whether a formula follows by a justification from the lines so far. -/
def validate (lines : Lines) (j : Justification) (claimed : Formula) : Except Objection Unit :=
  match j with
  | .ax number => validateInstance number claimed
  | j =>
    match j.conclusions lines with
    | .error o => .error o
    | .ok c =>
      if claimed ∈ c.toList then .ok ()
      else .error (.wrongConclusion j.rule claimed c.preferred)

/-- Modus ponens or modus tollens with its two citations exchanged. -/
def swapped? : Justification → Option Justification
  | .mp a b => some (.mp b a)
  | .mt a b => some (.mt b a)
  | _ => none

/-- The formula that follows by a justification. Citations of modus ponens and modus tollens that
the rule only takes in the other order are exchanged. -/
def infer (lines : Lines) (j : Justification) : Except Objection (Justification × Formula) :=
  match j.conclusions lines with
  | .ok c => .ok (j, c.preferred)
  | .error o =>
    match o.isRule, j.swapped? with
    | true, some j' =>
      match j'.conclusions lines with
      | .ok c => .ok (j', c.preferred)
      | .error o' => if o'.isRule then .error o else .error o'
    | _, _ => .error o

end Justification

end Propositional
