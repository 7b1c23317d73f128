import Propositional.Document.Reader
import Propositional.Exchange.Malformed
import Propositional.Formula.Room
import Propositional.Proof.Checker
import Propositional.Semantics.Entailment
import Propositional.Semantics.TruthTable

/-!
# Failures

How a request can fail. Most failures are reported: they have a kind and a message that is shown
to whoever asked. A breach is not: the request was used in a way that no report covers, and an
exception ends it.

## Main definitions

* `Breach`, `Breach.name`: a use that no report covers, and its exception
* `Failure`: why a request has no result
* `Failure.isReported`: whether the failure is reported
* `Outcome`: a result or a failure, with the notes left on the way
-/

namespace Propositional

/-- A use that no report covers. Each is the exception that ends the request. -/
inductive Breach where
  /-- A value that should have fields is no object. (`AttributeError`) -/
  | noFields
  /-- A value that should be the text of a formula or the name of a file is no text.
  (`TypeError`) -/
  | notText
  /-- A list that should write a formula holds something that is no sign of one.
  (`AttributeError`) -/
  | notASign
  /-- A formula with a name that is no text is to be written. (`TypeError`) -/
  | unwritable
  /-- A list or an object is looked up as a number. (`TypeError`) -/
  | notANumber
  /-- A number too large to have an integer part. (`OverflowError`) -/
  | infinite
  /-- An integer is read or to be written that has too many digits. (`ValueError`) -/
  | oversized
  /-- A document opens too many lists and objects in each other, or there is no room on the call
  stack for a pass over a formula. (`RecursionError`) -/
  | tooNested
  /-- The room on the call stack ends where the tokens of a formula do, and the error is to be
  placed at a token behind the last. (`IndexError`) -/
  | pastEnd
  /-- A text is printed that holds half of a surrogate pair. (`UnicodeEncodeError`) -/
  | unencodable
  /-- A sample is asked for from a counter without bits. (`ZeroDivisionError`) -/
  | noBits
  /-- A sample is asked for from a bit before the first. (`ValueError`) -/
  | negativeBit
  /-- A file is asked for by a name that no file can have. (`ValueError`) -/
  | fileName
deriving DecidableEq, Inhabited

/-- The name of the exception. -/
def Breach.name : Breach → String
  | .noFields => "AttributeError"
  | .notText => "TypeError"
  | .notASign => "AttributeError"
  | .unwritable => "TypeError"
  | .notANumber => "TypeError"
  | .infinite => "OverflowError"
  | .oversized => "ValueError"
  | .tooNested => "RecursionError"
  | .pastEnd => "IndexError"
  | .unencodable => "UnicodeEncodeError"
  | .noBits => "ZeroDivisionError"
  | .negativeBit => "ValueError"
  | .fileName => "ValueError"

namespace Breach

/-- The breach of a text that is read past its end. -/
def ofSyntaxError? (e : SyntaxError) : Option Breach :=
  if e.isPastEnd then some .pastEnd else none

/-- The breach of an objection that is not made. -/
def ofObjection? (o : Objection) : Option Breach :=
  match o.kind with
  | .lookup => some .notANumber
  | .oversized => some .oversized
  | _ => none

/-- The breach of a fault that is not reported. -/
def ofFault? : Fault → Option Breach
  | .text e => ofSyntaxError? e
  | .step o => ofObjection? o
  | .goalText e => ofSyntaxError? e
  | .axiomForbidden n => if n.isShort then none else some .oversized
  | _ => none

end Breach

/-- Why a request to the service is refused before any work is done. -/
inductive BadRequest where
  /-- The body is no object. -/
  | body
  /-- A line of the proof so far does not parse. -/
  | unparsable
  /-- The axiom is none of the three. -/
  | axiomNumber
  /-- A part of the axiom is missing. -/
  | axiomPart (number : Value) (u : Unassigned)

/-- The refusal in words. -/
def BadRequest.message : BadRequest → String
  | .body => "request body must be a JSON object"
  | .unparsable => "the proof so far contains unparsable lines"
  | .axiomNumber => "axiom must be 1, 2 or 3"
  | .axiomPart n u => "A" ++ n.plain ++ ": " ++ u.message

/-- Why a request has no result. -/
inductive Failure where
  | text (e : SyntaxError)
  | malformed (m : Malformed)
  | unassigned (u : Unassigned)
  | undefined (u : Undefined)
  | objection (o : Objection)
  | request (r : BadRequest)
  /-- Something looked up is not there. -/
  | notFound (what : Value)
  /-- A file cannot be read. -/
  | noFile
  /-- A text is no document. -/
  | notADocument
  | breach (b : Breach)

namespace Failure

/-- The name that reports use for the kind of failure, and that of the exception for a breach. -/
def kindName : Failure → String
  | .text _ => "ParseError"
  | .malformed _ => "CodecError"
  | .unassigned _ => "MissingInstantiation"
  | .undefined _ => "UnboundVariable"
  | .objection o =>
    match o.kind with
    | .reference => "LineReferenceError"
    | .rule => "RuleViolation"
    | .schema => "SchemaMismatch"
    | .lookup => ""
    | .oversized => ""
  | .request _ => "KernelError"
  | .notFound _ => "KeyError"
  | .noFile => "OSError"
  | .notADocument => "JSONDecodeError"
  | .breach b => b.name

/-- The failure in words; a breach has none. -/
def message : Failure → String
  | .text e => e.report
  | .malformed m => m.message
  | .unassigned u => u.message
  | .undefined u => u.message
  | .objection o => o.message
  | .request r => r.message
  | .notFound what => what.display
  | .noFile => ""
  | .notADocument => ""
  | .breach _ => ""

/-- Whether the failure lies in what was asked, and is reported as such. -/
def isReported : Failure → Bool
  | .text _ => true
  | .malformed _ => true
  | .unassigned _ => true
  | .undefined _ => true
  | .objection o => (Breach.ofObjection? o).isNone
  | .request _ => true
  | .notFound _ => false
  | .noFile => false
  | .notADocument => false
  | .breach _ => false

/-- The failure of a text that is no formula. -/
def ofSyntaxError (e : SyntaxError) : Failure :=
  match Breach.ofSyntaxError? e with
  | some b => .breach b
  | none => .text e

/-- The failure of an objection. -/
def ofObjection (o : Objection) : Failure :=
  match Breach.ofObjection? o with
  | some b => .breach b
  | none => .objection o

/-- The failure of a search. -/
def ofSearchError : SearchError → Failure
  | .undefined u => .undefined u
  | .sample .noBits => .breach .noBits
  | .sample .negativeBit => .breach .negativeBit

/-- The failure of a text that should be a document. -/
def ofDocumentFault : Document.Fault → Failure
  | .noDocument => .notADocument
  | .oversized => .breach .oversized
  | .tooNested => .breach .tooNested

/-- The failure of building an instance of an axiom. -/
def ofBuildError : Hilbert.BuildError → Failure
  | .noSuchAxiom n =>
    if n.isShort then .notFound (.text ("no axiom A" ++ n.plain)) else .breach .oversized
  | .notANumber _ => .breach .notANumber
  | .badPart e => .ofSyntaxError e
  | .missingPart u => .unassigned u

end Failure

/-- A result or a failure, with the notes left on the way. -/
structure Outcome (α : Type) where
  notes : List Journal.Note
  result : Except Failure α

namespace Outcome

variable {α β : Type}

/-- A result without notes. -/
def pure (a : α) : Outcome α :=
  { notes := [], result := .ok a }

/-- A failure without notes. -/
def fail (f : Failure) : Outcome α :=
  { notes := [], result := .error f }

/-- A result or a failure without notes. -/
def ofExcept (r : Except Failure α) : Outcome α :=
  { notes := [], result := r }

/-- Goes on from a result; a failure stays, and the notes follow each other. -/
def bind (x : Outcome α) (f : α → Outcome β) : Outcome β :=
  match x.result with
  | .error e => { notes := x.notes, result := .error e }
  | .ok a =>
    let y := f a
    { notes := x.notes ++ y.notes, result := y.result }

instance : Monad Outcome where
  pure := Outcome.pure
  bind := Outcome.bind

/-- Reads the text of a formula. -/
def parse (s : Settings) (text : String) : Outcome Formula :=
  ofExcept ((Formula.parse s.maxDepth text).mapError .ofSyntaxError)

/-- Goes on if there is room. -/
@[macro_inline] def within (fits : Bool) (x : Outcome α) : Outcome α :=
  if fits then x else fail (.breach .tooNested)

/-- Writes a formula. -/
def write (f : Formula) : Outcome String :=
  within f.fitsText (pure f.text)

/-- The names of the variables of a formula. -/
def vars (f : Formula) : Outcome (List String) :=
  within f.fitsVisit (pure f.vars)

/-- The value of a formula. -/
def evaluate (v : Valuation) (f : Formula) : Outcome Bool :=
  within f.fitsVisit (ofExcept ((f.evaluate v).mapError .undefined))

/-- Whether a formula is a tautology. -/
def isTautology (s : Settings) (f : Formula) : Outcome Bool :=
  within f.fitsVisit
    { notes := f.tautologyNotes s, result := (f.isTautology s).mapError .undefined }

/-- Whether premises entail a conclusion. -/
def entails (s : Settings) (premises : List Formula) (conclusion : Formula) :
    Outcome Entailment :=
  within ((conclusion :: premises).all Formula.fitsVisit)
    { notes := Entailment.notes s premises conclusion,
      result := (Propositional.entails s premises conclusion).mapError .ofSearchError }

/-- The truth table of formulas. -/
def truthTable (fs : List Formula) : Outcome TruthTable :=
  within (fs.all Formula.fitsVisit)
    (ofExcept ((Propositional.truthTable fs).mapError .undefined))

/-- Goes on if there is room for an effort. -/
@[macro_inline] def spending (effort : List Effort) (x : Outcome α) : Outcome α :=
  within (effort.all Effort.fits) x

/-- Whether two formulas are equal. -/
def equal (f g : Formula) : Outcome Bool :=
  spending [.compare f g] (pure (f == g))

/-- Matches a schema against a formula. -/
def matchWith (schema target : Formula) (s : Substitution) : Outcome (Option Substitution) :=
  spending (schema.matchEffort target s) (pure (schema.matchWith target s))

/-- The lines that witness a contradiction. -/
def contradiction (lines : Lines) : Outcome (Option (Nat × Nat)) :=
  spending lines.contradictionEffort (pure lines.contradiction?)

/-- The short written form of a justification, unless a number in it is too long. -/
def tag (j : Justification) : Outcome String :=
  if j.isShort then pure j.tag else fail (.breach .oversized)

/-- Why the check of a proof ends at a line: its fault is not reported, or there is no room for what
is done with formulas there. -/
def lineBreach? (c : Checked) : Option Breach :=
  match c.fault.bind Breach.ofFault? with
  | some b => some b
  | none => if c.effort.all Effort.fits then none else some .tooNested

/-- Why the check of a proof ends at its goal. -/
def goalBreach? (s : Settings) (a : Attempt) : Option Breach :=
  match (a.goalFault? s.maxDepth).bind Breach.ofFault? with
  | some b => some b
  | none => if (a.goalEffort s.maxDepth).all Effort.fits then none else some .tooNested

/-- What follows a check of all lines. A breach ends the check at its line, and only the notes on
the lines before it are left. -/
@[macro_inline] def whenCheckable (breach? : Checked → Option Breach) (s : Settings) (a : Attempt)
    (rest : Outcome α) : Outcome α :=
  let checked := a.derive s.maxDepth
  match checked.findSome? breach? with
  | none => rest
  | some b =>
    { notes := (checked.takeWhile fun c => (breach? c).isNone).filterMap Attempt.lineNote?,
      result := .error (.breach b) }

/-- The formulas on the lines of an attempt. -/
def linesOf (breach? : Checked → Option Breach) (s : Settings) (a : Attempt) : Outcome Lines :=
  whenCheckable breach? s a
    { notes := a.deriveNotes s.maxDepth, result := .ok (a.lines s.maxDepth) }

/-- Checks an attempt against its goal. -/
def checkOf (breach? : Checked → Option Breach) (s : Settings) (a : Attempt) :
    Outcome Verdict :=
  whenCheckable breach? s a <|
    match goalBreach? s a with
    | none => { notes := a.checkNotes s.maxDepth, result := .ok (a.check s.maxDepth) }
    | some b => { notes := a.deriveNotes s.maxDepth, result := .error (.breach b) }

/-- Checks an attempt for a contradiction. -/
def refuteOf (breach? : Checked → Option Breach) (s : Settings) (a : Attempt) :
    Outcome Verdict :=
  whenCheckable breach? s a <|
    if (a.contradictionEffort s.maxDepth).all Effort.fits then
      { notes := a.refuteNotes s.maxDepth, result := .ok (a.refute s.maxDepth) }
    else { notes := a.deriveNotes s.maxDepth, result := .error (.breach .tooNested) }

/-- The formulas on the lines of a proof. -/
def lines (s : Settings) (p : Proof) : Outcome Lines :=
  linesOf lineBreach? s (p.attempt s.maxDepth)

/-- Checks a proof against its goal. -/
def check (s : Settings) (p : Proof) : Outcome Verdict :=
  checkOf lineBreach? s (p.attempt s.maxDepth)

/-- Checks a proof for a contradiction. -/
def refute (s : Settings) (p : Proof) : Outcome Verdict :=
  refuteOf lineBreach? s (p.attempt s.maxDepth)

/-- Goes on from what a rule yields. -/
def ofRule (r : Except Objection α) : Outcome α :=
  ofExcept (r.mapError .ofObjection)

/-- What a justification yields. -/
def conclusions (lines : Lines) (j : Justification) : Outcome Conclusions :=
  spending (j.effort lines) (ofRule (j.conclusions lines))

/-- Whether a formula follows by a justification. -/
def validate (lines : Lines) (j : Justification) (f : Formula) : Outcome Unit :=
  spending (j.validateEffort lines f) (ofRule (j.validate lines f))

/-- Infers a line. -/
def infer (lines : Lines) (j : Justification) : Outcome (Justification × Formula) :=
  spending (j.inferEffort lines) (ofRule (j.infer lines))

/-- Builds an instance of an axiom. -/
def build (s : Settings) (number : Value) (parts : Table (Option String)) : Outcome Formula :=
  ofExcept ((Hilbert.build s.maxDepth number parts).mapError .ofBuildError)

end Outcome

end Propositional
