import Propositional.Failure

/-!
# Writing a proof step by step

An editor holds a proof in the making: givens first, then steps. A step is inferred from the
lines so far, is an instance of an axiom, or is written down unchecked. Steps are labelled by
their places. The last step, or else the last given, can be taken back.

## Main definitions

* `Draft`: a proof in the making
* `Draft.addGiven?`, `Draft.infer`, `Draft.instantiate`, `Draft.push`: additions to it
* `Draft.undo`: takes back the last addition
-/

namespace Propositional

/-- A proof in the making. -/
structure Draft where
  given : List String := []
  steps : List Step := []
deriving Inhabited

namespace Draft

/-- The draft as a proof of a goal, if there is one. -/
def proof (d : Draft) (goal : Option String) : Proof :=
  { given := d.given, steps := d.steps, goal }

/-- Adds a given text as it is; once there are steps no given can be added. -/
def addGiven? (d : Draft) (text : String) : Option Draft :=
  if d.steps.isEmpty then some { d with given := d.given ++ [text] } else none

/-- Adds a step. -/
def push (d : Draft) (s : Step) : Draft :=
  { d with steps := d.steps ++ [s] }

/-- The step on the line after the lines so far. -/
def nextStep (lines : Lines) (f : Formula) (j : Justification) : Outcome Step := do
  let text ← .write f
  return { line := lines.length + 1, formula := text, justification := j }

/-- The step that is inferred from the lines so far. -/
def infer (lines : Lines) (j : Justification) : Outcome Step := do
  let (j, f) ← .infer lines j
  nextStep lines f j

/-- The step that is an instance of an axiom. -/
def instantiate (s : Settings) (lines : Lines) (number : Value)
    (parts : Table (Option String)) : Outcome Step := do
  let f ← .build s number parts
  nextStep lines f (.ax number)

/-- Takes back the last step, or else the last given, and says which text it was. -/
def undo (d : Draft) : Draft × Option String :=
  match d.steps.getLast? with
  | some s => ({ d with steps := d.steps.dropLast }, some s.formula)
  | none => ({ d with given := d.given.dropLast }, d.given.getLast?)

end Draft

end Propositional
