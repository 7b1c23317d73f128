import Propositional.Exchange.PlainText
import Propositional.Failure
import Propositional.Semantics.TruthTable

/-!
# Proofs and answers as documents

A proof is exchanged as an object with its givens, its goal and its steps. The answers to
questions are written as objects too, with their fields in a fixed order.

## Main definitions

* `Proof.ofValue`: the proof that a document gives
* `Verdict.toValue`, `Entailment.toValue`, `TruthTable.toValue`: answers as documents
-/

namespace Propositional

/-- The texts of a list of texts. -/
def Value.texts? : List Value → Option (List String)
  | [] => some []
  | .text s :: vs => (texts? vs).map (s :: ·)
  | _ :: _ => none

namespace Proof

/-- The givens of a document. -/
def givenOf (data : Value) : Except Malformed (List String) :=
  match (data.field? "given").getD (.list []) with
  | .list items =>
    match Value.texts? items with
    | some given => .ok given
    | none => .error .given
  | _ => .error .given

/-- The goal of a document, if it has one. -/
def goalOf (data : Value) : Except Malformed (Option String) :=
  match data.fieldD "goal" with
  | .null => .ok none
  | .text s => .ok (some s)
  | _ => .error .goal

/-- The proof that the fields of a document give. -/
def ofFields (data : Value) : Except Malformed Proof :=
  match givenOf data with
  | .error m => .error m
  | .ok given =>
    match goalOf data with
    | .error m => .error m
    | .ok goal =>
      match Step.listOfValue given.length ((data.field? "steps").getD (.list [])) with
      | .error m => .error m
      | .ok steps => .ok { given, steps, goal }

/-- The proof that a document gives. Only an object is asked for its fields. -/
def ofValue (data : Value) : Except Failure Proof :=
  if data.isObject then (ofFields data).mapError .malformed
  else .error (.breach .noFields)

end Proof

/-- The document of a diagnostic. -/
def Diagnostic.toValue (d : Diagnostic) : Value :=
  .object
    [("line", .int d.line), ("message", .text d.fault.message), ("kind", .text d.fault.kindName)]

/-- The document of a verdict. -/
def Verdict.toValue (v : Verdict) : Value :=
  .object [("ok", .bool v.ok), ("errors", .list (v.errors.map Diagnostic.toValue))]

/-- The document of a valuation. -/
def Valuation.toValue (v : Valuation) : Value :=
  .object (v.map fun p => (p.1, .bool p.2))

/-- The document of an answer to a question of entailment. -/
def Entailment.toValue (e : Entailment) : Value :=
  .object
    [("valid", .bool e.valid), ("exhaustive", .bool e.exhaustive),
     ("countermodels", .list (e.countermodels.map Valuation.toValue))]

/-- The document of a row of a truth table. -/
def TruthRow.toValue (r : TruthRow) : Value :=
  .object [("valuation", r.valuation.toValue), ("values", .list (r.values.map .bool))]

/-- The document of a truth table. -/
def TruthTable.toValue (t : TruthTable) : Value :=
  .object
    [("vars", .list (t.vars.map .text)), ("rows", .list (t.rows.map TruthRow.toValue))]

end Propositional
