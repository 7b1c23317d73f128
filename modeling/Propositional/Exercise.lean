import Propositional.Exchange.ProofForm
import Propositional.Exchange.Signs

/-!
# Exercises

An exercise sets givens and a goal, or asks for a contradiction, and says which rules and which
axioms may be used. A solution is first held against what is allowed; only if all of it is allowed
is it checked as a proof.

Exercises come from documents that people write by hand, so they are read leniently: a text or an
object stands for the list of its characters or field names, a number may be written as text, and
the givens and the goal may be anything until a solution is checked.

## Main definitions

* `Exercise`: an exercise
* `Exercise.ofValue`: the exercise that a document gives
* `Catalog.read`, `Catalog.find`: the exercises of a file
* `Exercise.forbidden`: the steps that are not allowed
* `Exercise.verify`: the verdict on a solution
-/

namespace Propositional

/-- An exercise. -/
structure Exercise where
  id : String
  title : String
  goal : Value := .text ""
  given : List Value := []
  goalMode : Value := .text "formula"
  rules : List String := ["MP"]
  axioms : List Int := [1, 2, 3]
  hints : List Value := []
deriving Inhabited

namespace Exercise

/-- Whether a contradiction is asked for. -/
def isRefutation (e : Exercise) : Bool :=
  match e.goalMode with
  | .text s => s == "contradiction"
  | _ => false

/-! ## Reading -/

/-- A fault of an exercise as a failure. -/
def fault (f : ExerciseFault) : Failure :=
  .malformed (.exercise f)

/-- The values of a field that should be a list; a value that counts as missing gives none. -/
def listOf (v : Value) : Except Failure (List Value) :=
  match v.elements? with
  | some items => .ok items
  | none => .error (fault (.notIterable v))

/-- The values of a field that may be missing. -/
def optionalList (v : Value) : Except Failure (List Value) :=
  if v.isTruthy then listOf v else .ok []

/-- A field of what is allowed. -/
def allowedField (allowed : Value) (field : String) (default : Value) : Except Failure Value :=
  if allowed.isObject then .ok ((allowed.field? field).getD default)
  else .error (fault (.noFields allowed))

/-- The name of a rule in capitals. -/
def ruleName (v : Value) : Except Failure String :=
  match v with
  | .text s => .ok (Text.upper s)
  | v => .error (fault (.ruleName v))

/-- The number of an axiom: an integer, a truth value, the integer part of a number, or what a
text writes. -/
def axiomNumber (v : Value) : Except Failure Int :=
  match v with
  | .int n => .ok n
  | .bool b => .ok (if b then 1 else 0)
  | .real x =>
    match x.truncate? with
    | some n => .ok n
    | none => .error (if x.isNaN then fault .noNumber else .breach .infinite)
  | .text s =>
    match Text.readInteger s with
    | .ok n => .ok n
    | .error .noInteger => .error (fault (.integerText s))
    | .error (.oversized n) => .error (fault (.integerSize n))
  | v => .error (fault (.integerKind v))

/-- The exercise that a document gives. Its fields are read one after the other, and the first
fault is reported. -/
def ofValue (data : Value) : Except Failure Exercise := do
  if !data.isObject then
    throw (fault (.noFields data))
  let allowed := data.fieldD "allowed"
  let allowed := if allowed.isTruthy then allowed else .object []
  let some id := data.field? "id" | throw (fault (.missing "id"))
  let given ← optionalList (data.fieldD "given")
  let rules ← allowedField allowed "rules" (.list [.text "MP"])
  let rules ← (← listOf rules).mapM ruleName
  let axioms ← allowedField allowed "axioms" (.list [.int 1, .int 2, .int 3])
  let axioms ← (← listOf axioms).mapM axiomNumber
  let hints ← optionalList (data.fieldD "hints")
  return {
    id := id.plain
    title := ((data.field? "title").getD id).plain
    goal := (data.field? "goal").getD (.text "")
    given
    goalMode := (data.field? "goalMode").getD (.text "formula")
    rules, axioms, hints }

/-! ## Solutions -/

/-- Whether a step is not allowed, and why. -/
def forbidden? (e : Exercise) (s : Step) : Option Diagnostic :=
  match s.justification with
  | .ax n =>
    if e.axioms.any fun m => n.equalsInteger m then none
    else some { line := s.line, fault := .axiomForbidden n }
  | j =>
    if e.rules.contains j.rule then none
    else some { line := s.line, fault := .ruleForbidden j.rule }

/-- The steps that are not allowed, in order. -/
def forbidden (e : Exercise) (steps : List Step) : List Diagnostic :=
  steps.filterMap e.forbidden?

/-- The formulas that documents write, up to the first that writes none, and the failure there. -/
def readings (maxDepth : Int) : List Value → List Reading × Option Failure
  | [] => ([], none)
  | v :: vs =>
    match Formula.ofValue maxDepth v with
    | .error f => ([], some f)
    | .ok r =>
      let (rs, failure) := readings maxDepth vs
      (r :: rs, failure)

/-- Why the check of a solution ends at a line: as for any proof, or because of a formula that
cannot be written into a message. -/
def breach? (c : Checked) : Option Breach :=
  match c.fault with
  | some (.step (.wrongConclusion _ _ expected)) =>
    if expected.isWritable then Outcome.lineBreach? c else some .unwritable
  | _ => Outcome.lineBreach? c

/-- Checks a solution against the goal of an exercise. A goal of null asks for no goal. -/
def verifyGoal (s : Settings) (e : Exercise) (given : List Reading) (steps : List Step) :
    Outcome Verdict :=
  match e.goal with
  | .null => .checkOf breach? s { given, steps }
  | goal =>
    match Formula.ofValue s.maxDepth goal with
    | .ok r => .checkOf breach? s { given, steps, goal := some r }
    | .error f => do
      let _ ← Outcome.linesOf breach? s { given, steps }
      .fail f

/-- The verdict that refuses steps, unless one of them cannot be told. -/
def refuse (errors : List Diagnostic) : Outcome Verdict :=
  match errors.findSome? fun d => Breach.ofFault? d.fault with
  | some b => .fail (.breach b)
  | none => .pure { errors }

/-- The verdict on a solution of an exercise: what is not allowed, or else what is wrong. -/
def verify (s : Settings) (e : Exercise) (steps : List Step) : Outcome Verdict :=
  match e.forbidden steps with
  | d :: ds => refuse (d :: ds)
  | [] =>
    match readings s.maxDepth e.given with
    | (given, some f) => do
      let _ ← Outcome.linesOf breach? s { given, steps := [] }
      .fail f
    | (given, none) =>
      if e.isRefutation then .refuteOf breach? s { given, steps }
      else e.verifyGoal s given steps

end Exercise

namespace Catalog

/-- The exercises that a document lists. -/
def ofValue (data : Value) : Except Failure (List Exercise) :=
  match data with
  | .list items => items.mapM Exercise.ofValue
  | _ => .error (.malformed .catalog)

/-- The exercises that the text of a file lists. -/
def read (text : String) : Except Failure (List Exercise) :=
  match Document.read text with
  | .error f => .error (.ofDocumentFault f)
  | .ok data => ofValue data

/-- The first exercise of a name. -/
def find (exercises : List Exercise) (id : String) : Except Failure Exercise :=
  match exercises.find? fun e => e.id == id with
  | some e => .ok e
  | none => .error (.notFound (.text id))

end Catalog

end Propositional
