import Propositional.Formula.Room
import Propositional.Proof.Contradiction

/-!
# Effort

What is compared and written when a rule is applied, a line is checked or a contradiction is looked
for. A rule compares parts of the lines that it cites, and an objection is written where it is made,
also if the other order of the citations is tried after it. Formulas are compared one after the
other until two are equal.

## Main definitions

* `Formula.matchEffort`: the effort of matching a schema
* `Justification.effort`: the effort of applying a rule
* `Justification.validateEffort`, `Justification.inferEffort`: of checking and of inferring a line
* `Lines.contradictionEffort`: of the search for a contradiction
-/

namespace Propositional

/-- The effort of matching a schema against a formula: a metavariable that stands for something is
compared with what it meets. -/
def Formula.matchEffort : Formula → Formula → Substitution → List Effort
  | .var name, target, s =>
    if isMetavariable name then (s.get? name).toList.map fun bound => .compare bound target else []
  | .neg f, .neg g, s => matchEffort f g s
  | .bin op l r, .bin op' l' r', s =>
    if op = op' then
      matchEffort l l' s ++
        match matchWith l l' s with
        | none => []
        | some s' => matchEffort r r' s'
    else []
  | _, _, _ => []

/-- The effort of looking for a formula among others. -/
def Formula.memberEffort (f : Formula) : List Formula → List Effort
  | [] => []
  | g :: gs => .compare f g :: if f = g then [] else f.memberEffort gs

namespace Rule

/-- The formulas that modus ponens compares, the antecedent first. -/
def comparedPonens : Formula → Formula → List (Formula × Formula)
  | f, .imp x _ => [(x, f)]
  | _, _ => []

/-- The formulas that modus tollens compares. -/
def comparedTollens : Formula → Formula → List (Formula × Formula)
  | .imp _ y, .neg z => [(y, z)]
  | _, _ => []

/-- The formulas that hypothetical syllogism compares. -/
def comparedChain : Formula → Formula → List (Formula × Formula)
  | .imp _ y, .imp y' _ => [(y, y')]
  | _, _ => []

/-- The formulas that disjunctive syllogism compares. -/
def comparedDisjoin : Formula → Formula → List (Formula × Formula)
  | .or x y, .neg z => (z, x) :: if z = x then [] else [(z, y)]
  | _, _ => []

/-- The effort of comparing parts of two cited lines, if both are there. -/
def comparing (compared : Formula → Formula → List (Formula × Formula)) (lines : Lines)
    (a b : Value) : List Effort :=
  match lines.cite a, lines.cite b with
  | .ok f, .ok g => (compared f g).map fun p => .compare p.1 p.2
  | _, _ => []

/-- The effort of writing an objection. -/
def objecting {α : Type} (r : Except Objection α) : List Effort :=
  match r with
  | .ok _ => []
  | .error o => o.quoted.map .write

/-- The effort of looking for a formula among what a rule yields. -/
def seeking (claimed : Formula) : Except Objection Conclusions → List Effort
  | .error _ => []
  | .ok c => claimed.memberEffort c.toList

end Rule

namespace Justification

/-- The effort of applying a rule. -/
def effort (lines : Lines) : Justification → List Effort
  | .mp a b =>
    Rule.comparing Rule.comparedPonens lines a b ++ Rule.objecting (Rule.modusPonens lines a b)
  | .mt a b =>
    Rule.comparing Rule.comparedTollens lines a b ++ Rule.objecting (Rule.modusTollens lines a b)
  | .hs a b =>
    Rule.comparing Rule.comparedChain lines a b ++ Rule.objecting (Rule.chain lines a b)
      ++ Rule.comparing Rule.comparedChain lines b a ++ Rule.objecting (Rule.chain lines b a)
  | .ds a b =>
    Rule.comparing Rule.comparedDisjoin lines a b ++ Rule.comparing Rule.comparedDisjoin lines b a
  | _ => []

/-- The effort of finding out whether a formula follows by a justification. -/
def validateEffort (lines : Lines) (j : Justification) (claimed : Formula) : List Effort :=
  match j with
  | .ax n =>
    ((Hilbert.schema? n).toList.flatMap fun schema => schema.matchEffort claimed [])
      ++ Rule.objecting (validateInstance n claimed)
  | j =>
    j.effort lines ++ Rule.seeking claimed (j.conclusions lines)
      ++ Rule.objecting (j.validate lines claimed)

/-- The effort of inferring a line. -/
def inferEffort (lines : Lines) (j : Justification) : List Effort :=
  j.effort lines ++
    match j.conclusions lines, j.swapped? with
    | .error o, some j' => if o.isRule then j'.effort lines else []
    | _, _ => []

end Justification

/-! ## Contradictions -/

namespace Formula

/-- The effort of telling whether a formula is the negation of another. -/
def negationEffort : Formula → Formula → List Effort
  | .neg h, g => [.compare h g]
  | _, _ => []

/-- The effort of telling whether one of two formulas is the negation of the other. -/
def clashEffort (f g : Formula) : List Effort :=
  negationEffort f g ++ if f.isNegationOf g then [] else negationEffort g f

/-- The effort of telling whether a formula joins a formula with its negation. -/
def absurdEffort : Formula → List Effort
  | .and l r => clashEffort l r
  | _ => []

end Formula

namespace Lines

/-- The effort of looking for a line that is a contradiction by itself. -/
def absurdEffort : Lines → List Effort
  | [] => []
  | some f :: rest => f.absurdEffort ++ if f.isAbsurd then [] else absurdEffort rest
  | none :: rest => absurdEffort rest

/-- The effort of looking for a line that clashes with a formula. -/
def clashEffort (f : Formula) : Lines → List Effort
  | [] => []
  | some g :: rest => Formula.clashEffort f g ++ if f.clashes g then [] else clashEffort f rest
  | none :: rest => clashEffort f rest

/-- The effort of looking for a pair of lines that clash. -/
def clashingEffort : Lines → List Effort
  | [] => []
  | some f :: rest =>
    clashEffort f rest ++ if (clash? f 0 rest).isSome then [] else clashingEffort rest
  | none :: rest => clashingEffort rest

/-- The effort of looking for a contradiction. -/
def contradictionEffort (lines : Lines) : List Effort :=
  absurdEffort lines ++ if (absurd? 1 lines).isSome then [] else clashingEffort lines

end Lines

end Propositional
