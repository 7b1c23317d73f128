import Propositional.Document.Encoding
import Propositional.Exchange.ProofForm

/-!
# The service

The questions that programs ask over the network, one route each: a document is posted and a
document is answered. Nothing is kept between requests. A reported failure is answered with its
kind and message, and with the position if it lies in the text of a formula. A breach is not
answered: its exception is passed on to the framework that the service runs in.

The framework takes the address of a request apart and finds the question that it asks, or answers
itself. What it does is given to the service as a `Routing`.

## Main definitions

* `Service.Route`: the questions
* `Service.answer`: the answer to a document posted on a route
* `Service.Routing`: what the framework makes of a request
* `Service.respond`: the response to a request
-/

namespace Propositional.Service

/-- The questions. -/
inductive Route where
  | verify
  | parse
  | infer
  | instantiate
  | tautology
  | entails
  | truthTable
deriving DecidableEq, Inhabited

/-- The path of a route. -/
def Route.path : Route → String
  | .verify => "/api/verify"
  | .parse => "/api/parse"
  | .infer => "/api/infer"
  | .instantiate => "/api/axiom"
  | .tautology => "/api/tautology"
  | .entails => "/api/entails"
  | .truthTable => "/api/truth-table"

/-- The route of a path. -/
def Route.ofPath? (path : String) : Option Route :=
  [verify, parse, infer, instantiate, tautology, entails, truthTable].find? (·.path == path)

/-! ## Fields -/

/-- A formula from a field that should be its text. -/
def formulaOf (s : Settings) (field : String) (v : Value) : Outcome Formula :=
  match v with
  | .text text => .parse s text
  | _ => .fail (.malformed (.fieldText field))

/-- Formulas from fields that should be their texts. -/
def formulasFrom (s : Settings) (field : String) : List Value → Outcome (List Formula)
  | [] => .pure []
  | v :: vs => do
    let f ← formulaOf s field v
    let fs ← formulasFrom s field vs
    return f :: fs

/-- Formulas from a field that should be the list of their texts. -/
def formulasOf (s : Settings) (field : String) (v : Value) : Outcome (List Formula) :=
  match v with
  | .list items => formulasFrom s field items
  | _ => .fail (.malformed (.fieldTexts field))

/-- A part of an axiom from a field that may be missing. -/
def partOf (field : String) (v : Value) : Except Failure (String × Option String) :=
  match v with
  | .null => .ok (field, none)
  | .text text => .ok (field, some text)
  | _ => .error (.malformed (.fieldText field))

/-! ## Answers -/

/-- A proof from a document: its plain text, or its fields. -/
def proofOf (data : Value) : Except Failure Proof :=
  match data.field? "proof" with
  | some v => Proof.ofTextValue v
  | none => Proof.ofValue data

/-- Whether a document asks for a contradiction. -/
def asksContradiction (data : Value) : Bool :=
  match data.fieldD "goalMode" with
  | .text mode => mode == "contradiction"
  | _ => false

/-- Checks a proof. -/
def verify (s : Settings) (data : Value) : Outcome Value := do
  let p ← .ofExcept (proofOf data)
  let verdict ← if asksContradiction data then Outcome.refute s p else Outcome.check s p
  return verdict.toValue

/-- Reads a formula and writes it in both forms. -/
def parse (s : Settings) (data : Value) : Outcome Value := do
  let f ← formulaOf s "formula" (data.fieldD "formula")
  let text ← .write f
  return .object [("formula", .text text), ("ascii", .text (Formula.ascii text))]

/-- Infers the next line of a proof. -/
def infer (s : Settings) (data : Value) : Outcome Value := do
  let p ← .ofExcept (Proof.ofValue data)
  let lines ← .lines s p
  if lines.any Option.isNone then
    Outcome.fail (.request .unparsable)
  else
    let step := data.fieldD "step"
    let step := if step.isNull then .object [] else step
    let j ← .ofExcept ((Justification.ofValue step).mapError .malformed)
    let (j, f) ← .infer lines j
    let text ← .write f
    return .object
      [("formula", .text text), ("line", .int (lines.length + 1)), ("step", j.toValue)]

/-- A missing part of an axiom is reported with the axiom. -/
def withAxiom (number : Value) (f : Failure) : Failure :=
  match f with
  | .unassigned u => .request (.axiomPart number u)
  | f => f

/-- Builds an instance of an axiom. -/
def instantiate (s : Settings) (data : Value) : Outcome Value := do
  let n := data.fieldD "axiom"
  if n.equalsInteger 1 || n.equalsInteger 2 || n.equalsInteger 3 then
    let alpha ← .ofExcept (partOf "alpha" (data.fieldD "alpha"))
    let beta ← .ofExcept (partOf "beta" (data.fieldD "beta"))
    let gamma ← .ofExcept (partOf "gamma" (data.fieldD "gamma"))
    let built := Outcome.build s n [alpha, beta, gamma]
    let f ← .ofExcept (built.result.mapError (withAxiom n))
    let text ← .write f
    return .object [("formula", .text text), ("rule", .text "AX"), ("axiom", n)]
  else
    Outcome.fail (.request .axiomNumber)

/-- Whether a formula is a tautology. -/
def tautology (s : Settings) (data : Value) : Outcome Value := do
  let f ← formulaOf s "formula" (data.fieldD "formula")
  let text ← .write f
  let b ← .isTautology s f
  return .object [("formula", .text text), ("tautology", .bool b)]

/-- Whether premises entail a conclusion. -/
def entails (s : Settings) (data : Value) : Outcome Value := do
  let premises ← formulasOf s "premises" ((data.field? "premises").getD (.list []))
  let conclusion ← formulaOf s "conclusion" (data.fieldD "conclusion")
  let e ← .entails s premises conclusion
  return e.toValue

/-- The truth table of formulas. -/
def truthTable (s : Settings) (data : Value) : Outcome Value := do
  let fs ← formulasOf s "formulas" ((data.field? "formulas").getD (.list []))
  let t ← .truthTable fs
  return t.toValue

/-- The answer to a document posted on a route; only an object is a request. -/
def answer (s : Settings) (route : Route) (data : Value) : Outcome Value :=
  if !data.isObject then .fail (.request .body)
  else
    match route with
    | .verify => verify s data
    | .parse => parse s data
    | .infer => infer s data
    | .instantiate => instantiate s data
    | .tautology => tautology s data
    | .entails => entails s data
    | .truthTable => truthTable s data

/-! ## Requests and responses -/

/-- A response: its status, and its document if it has one. -/
structure Response where
  status : Nat
  body : Option Value
deriving Inhabited

/-- The document of a reported failure. -/
def failureBody (f : Failure) : Value :=
  let position := match f with
    | .text e => e.position?
    | _ => none
  .object ([("error", .text f.message), ("kind", .text f.kindName)]
    ++ (position.map fun n => ("position", Value.int n)).toList)

/-- The channel of the service. -/
def channel : String := Journal.channel "web"

/-- The note on a refused request. -/
def refusalNote (f : Failure) : Journal.Note :=
  { level := .info, source := channel, message := "rejected request: " ++ f.message }

/-- The document that a body writes; null if it writes none. -/
def bodyValue (body : String) : Except Failure Value :=
  match Document.decode? body with
  | none => .ok .null
  | some text =>
    match Document.read text with
    | .ok v => .ok v
    | .error .tooNested => .error (.breach .tooNested)
    | .error _ => .ok .null

/-- The response to an answer. A reported failure is a bad request, any other failure is passed
on. -/
def responseOf (x : Outcome Value) : Outcome Response :=
  match x.result with
  | .ok v => { notes := x.notes, result := .ok { status := 200, body := some v } }
  | .error f =>
    if f.isReported then
      { notes := x.notes ++ [refusalNote f],
        result := .ok { status := 400, body := some (failureBody f) } }
    else { notes := x.notes, result := .error f }

/-- What the framework makes of a request: a question, or a response of its own. -/
inductive Routing where
  | question (route : Route)
  /-- The framework answers with a status and no document. -/
  | settled (status : Nat)
deriving DecidableEq, Inhabited

/-- The response to a request with a body. -/
def respond (s : Settings) (routing : Routing) (body : String) : Outcome Response :=
  match routing with
  | .settled status => .pure { status, body := none }
  | .question route => responseOf do
    let data ← .ofExcept (bodyValue body)
    answer s route data

end Propositional.Service
