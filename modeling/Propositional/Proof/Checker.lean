import Propositional.Journal
import Propositional.Proof.Effort

/-!
# Checking proofs

A proof is a list of given texts, a list of steps, each with a label, a text and a justification,
and perhaps a goal. Givens occupy the first lines and steps follow them, whatever their labels
say. The checker passes over all lines once and never stops early: each faulty line gets one
diagnostic. A line that does not parse keeps its place but cannot be cited; a line that is
refused can.

## Main definitions

* `Step`, `Proof`: lines with their justifications, and what they are to prove
* `Attempt`: a proof whose givens and goal have been read
* `Fault`, `Diagnostic`: what is wrong with a line
* `Checked`: a line after checking
* `Attempt.derive`: all lines of an attempt, checked
* `Attempt.check`, `Attempt.refute`: whether an attempt reaches its goal, or a contradiction
* `Proof.check`, `Proof.refute`: the same of a proof as written
-/

namespace Propositional

/-- A step of a proof: its label, its text and why it follows. -/
structure Step where
  line : Int
  formula : String
  justification : Justification
deriving Inhabited

/-- A proof as written: the givens, the steps, and the goal if there is one. -/
structure Proof where
  given : List String
  steps : List Step
  goal : Option String := none
deriving Inhabited

/-- What reading a formula gave: the formula, or why there is none. -/
abbrev Reading := Except SyntaxError Formula

/-- A proof whose givens and goal have been read; its steps are still as written. -/
structure Attempt where
  given : List Reading
  steps : List Step
  goal : Option Reading := none

/-- The attempt that a proof makes. -/
def Proof.attempt (maxDepth : Int) (p : Proof) : Attempt :=
  { given := p.given.map (Formula.parse maxDepth), steps := p.steps,
    goal := p.goal.map (Formula.parse maxDepth) }

/-- What is wrong with a line. -/
inductive Fault where
  /-- The text of the line does not parse. -/
  | text (e : SyntaxError)
  /-- The step does not follow. -/
  | step (o : Objection)
  /-- The goal does not parse. -/
  | goalText (e : SyntaxError)
  /-- The last line is not the goal. -/
  | goalMissed (goal : Formula)
  /-- No contradiction was reached. -/
  | noContradiction
  /-- The exercise forbids the axiom. -/
  | axiomForbidden (number : Value)
  /-- The exercise forbids the rule. -/
  | ruleForbidden (rule : String)

namespace Fault

/-- The fault in words. -/
def message : Fault → String
  | .text e => e.message
  | .step o => o.message
  | .goalText e => "goal: " ++ e.message
  | .goalMissed goal => "the last line does not match the goal " ++ goal.text
  | .noContradiction => "no contradiction was derived"
  | .axiomForbidden n => "A" ++ n.plain ++ " is not allowed in this exercise"
  | .ruleForbidden rule => "rule " ++ rule ++ " is not allowed in this exercise"

/-- The name that reports use for the kind of fault; an objection that is not made has none. -/
def kindName : Fault → String
  | .text _ => "ParseError"
  | .goalText _ => "ParseError"
  | .step o =>
    match o.kind with
    | .reference => "ReferenceError"
    | .schema => "SchemaMismatch"
    | .rule => "RuleViolation"
    | .lookup => ""
    | .oversized => ""
  | .goalMissed _ => "GoalMismatch"
  | .noContradiction => "GoalMismatch"
  | .axiomForbidden _ => "NotAllowed"
  | .ruleForbidden _ => "NotAllowed"

end Fault

/-- A fault and the label of the line it is reported at. -/
structure Diagnostic where
  line : Int
  fault : Fault

/-- A diagnostic in words. -/
def Diagnostic.text (d : Diagnostic) : String :=
  "L" ++ Text.integer d.line ++ ": " ++ d.fault.message

/-- The outcome of a check: its diagnostics in order. -/
structure Verdict where
  errors : List Diagnostic

namespace Verdict

/-- Whether nothing is wrong. -/
def ok (v : Verdict) : Bool :=
  v.errors.isEmpty

/-- The outcome on one line. -/
def summary (v : Verdict) : String :=
  if v.ok then "valid proof" else String.intercalate " | " (v.errors.map Diagnostic.text)

end Verdict

/-- A line after checking: its label, its justification unless it is given, the formula it holds
unless it does not parse, its fault if it has one, and the effort of finding that out and of noting
it. -/
structure Checked where
  label : Int
  justification : Option Justification
  formula : Option Formula
  fault : Option Fault
  effort : List Effort := []

/-- The diagnostic of a faulty line. -/
def Checked.diagnostic? (c : Checked) : Option Diagnostic :=
  c.fault.map fun f => { line := c.label, fault := f }

namespace Attempt

/-! ## Lines -/

/-- Checks a given. -/
def checkGiven (label : Int) (r : Reading) : Checked :=
  match r with
  | .error e => { label, justification := none, formula := none, fault := some (.text e) }
  | .ok f => { label, justification := none, formula := some f, fault := none }

/-- Checks a step against the lines before it. A step that follows is written into a note. -/
def checkStep (maxDepth : Int) (lines : Lines) (s : Step) : Checked :=
  match Formula.parse maxDepth s.formula with
  | .error e =>
    { label := s.line, justification := some s.justification, formula := none,
      fault := some (.text e) }
  | .ok f =>
    { label := s.line, justification := some s.justification, formula := some f,
      fault :=
        match s.justification.validate lines f with
        | .ok _ => none
        | .error o => some (.step o),
      effort :=
        s.justification.validateEffort lines f ++
          match s.justification.validate lines f with
          | .ok _ => [.write f]
          | .error _ => [] }

/-- Checks the givens, labelled by their place from `label` on. -/
def checkGivens (label : Int) : List Reading → List Checked
  | [] => []
  | r :: rest => checkGiven label r :: checkGivens (label + 1) rest

/-- Checks steps one after the other, each against all lines before it. -/
def checkSteps (maxDepth : Int) (lines : Lines) : List Step → List Checked
  | [] => []
  | s :: rest =>
    let c := checkStep maxDepth lines s
    c :: checkSteps maxDepth (lines ++ [c.formula]) rest

/-- All lines of an attempt, checked. -/
def derive (maxDepth : Int) (a : Attempt) : List Checked :=
  let givens := checkGivens 1 a.given
  givens ++ checkSteps maxDepth (givens.map Checked.formula) a.steps

/-- The formulas on the lines of an attempt. -/
def lines (maxDepth : Int) (a : Attempt) : Lines :=
  (a.derive maxDepth).map Checked.formula

/-- The diagnostics of the lines of an attempt. -/
def faults (maxDepth : Int) (a : Attempt) : List Diagnostic :=
  (a.derive maxDepth).filterMap Checked.diagnostic?

/-! ## Verdicts -/

/-- The label that a fault of the whole proof is reported at. -/
def lastLabel (a : Attempt) : Int :=
  match a.steps.getLast? with
  | some s => s.line
  | none => a.given.length

/-- What is wrong with the goal, if there is one. -/
def goalFault? (maxDepth : Int) (a : Attempt) : Option Fault :=
  match a.goal with
  | none => none
  | some (.error e) => some (.goalText e)
  | some (.ok target) =>
    if (a.lines maxDepth).getLast? = some (some target) then none
    else some (.goalMissed target)

/-- What is wrong with the whole proof when it is to reach its goal. -/
def missedGoal (maxDepth : Int) (a : Attempt) : List Diagnostic :=
  match a.goalFault? maxDepth with
  | none => []
  | some f => [{ line := a.lastLabel, fault := f }]

/-- What is wrong with the whole proof when it is to reach a contradiction. Only lines without
faults are looked at for one. -/
def missedContradiction (maxDepth : Int) (a : Attempt) : List Diagnostic :=
  if (a.faults maxDepth).isEmpty && (a.lines maxDepth).contradiction?.isNone then
    [{ line := a.lastLabel, fault := .noContradiction }]
  else []

/-- The effort of comparing the last line with the goal, and of writing a goal that is missed. -/
def goalEffort (maxDepth : Int) (a : Attempt) : List Effort :=
  match a.goal, (a.lines maxDepth).getLast? with
  | some (.ok target), some (some f) =>
    .compare f target :: if f = target then [] else [.write target]
  | some (.ok target), _ => [.write target]
  | _, _ => []

/-- The effort of looking for a contradiction. -/
def contradictionEffort (maxDepth : Int) (a : Attempt) : List Effort :=
  if (a.faults maxDepth).isEmpty then (a.lines maxDepth).contradictionEffort else []

/-- Whether every step follows and the last line is the goal, if there is one. -/
def check (maxDepth : Int) (a : Attempt) : Verdict :=
  { errors := a.faults maxDepth ++ a.missedGoal maxDepth }

/-- Whether every step follows and the lines hold a contradiction. -/
def refute (maxDepth : Int) (a : Attempt) : Verdict :=
  { errors := a.faults maxDepth ++ a.missedContradiction maxDepth }

/-! ## Notes -/

/-- The channel of the checker. -/
def channel : String := Journal.channel "checker"

/-- The note on a diagnostic. -/
def diagnosticNote (d : Diagnostic) : Journal.Note :=
  { level := .debug, source := channel,
    message := "[ERR] line " ++ Text.integer d.line ++ ": " ++ d.fault.message }

/-- The note on a checked line; a given that parses leaves none. -/
def lineNote? (c : Checked) : Option Journal.Note :=
  match c.diagnostic? with
  | some d => some (diagnosticNote d)
  | none =>
    match c.justification, c.formula with
    | some j, some f =>
      some
        { level := .debug, source := channel,
          message := "[OK] line " ++ Text.integer c.label ++ ": " ++ j.tag ++ " => " ++ f.text }
    | _, _ => none

/-- The notes on the lines of an attempt. -/
def deriveNotes (maxDepth : Int) (a : Attempt) : List Journal.Note :=
  (a.derive maxDepth).filterMap lineNote?

/-- The note on the outcome of a check. -/
def outcomeNote (a : Attempt) (v : Verdict) : Journal.Note :=
  { level := .info, source := channel,
    message := "checked " ++ Text.integer a.steps.length ++ " step(s): "
      ++ if v.ok then "ok" else Text.integer v.errors.length ++ " error(s)" }

/-- The notes that `check` leaves. -/
def checkNotes (maxDepth : Int) (a : Attempt) : List Journal.Note :=
  a.deriveNotes maxDepth ++ (a.missedGoal maxDepth).map diagnosticNote
    ++ [a.outcomeNote (a.check maxDepth)]

/-- The notes that `refute` leaves. -/
def refuteNotes (maxDepth : Int) (a : Attempt) : List Journal.Note :=
  a.deriveNotes maxDepth ++ (a.missedContradiction maxDepth).map diagnosticNote

end Attempt

namespace Proof

/-! ## Proofs as written -/

/-- All lines of a proof, checked. -/
def derive (maxDepth : Int) (p : Proof) : List Checked :=
  (p.attempt maxDepth).derive maxDepth

/-- The formulas on the lines of a proof. -/
def lines (maxDepth : Int) (p : Proof) : Lines :=
  (p.attempt maxDepth).lines maxDepth

/-- Whether every step of a proof follows and the last line is the goal, if there is one. -/
def check (maxDepth : Int) (p : Proof) : Verdict :=
  (p.attempt maxDepth).check maxDepth

/-- Whether every step of a proof follows and the lines hold a contradiction. -/
def refute (maxDepth : Int) (p : Proof) : Verdict :=
  (p.attempt maxDepth).refute maxDepth

end Proof

end Propositional
