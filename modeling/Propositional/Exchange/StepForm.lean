import Propositional.Exchange.Malformed
import Propositional.Proof.Checker
import Propositional.Text.Upper

/-!
# Steps as documents

A step is exchanged as an object with its label, its formula and the fields of its justification:
the rule and the lines it cites, the side taken by a simplification, the direction of a
biconditional, the number of an axiom. An axiom may also be named by its number alone, as `A2`.

## Main definitions

* `Justification.ofValue`, `Justification.toValue`: justifications
* `Step.ofValue`, `Step.toValue`: steps
* `Step.listOfValue`: a list of steps, labelled by their places where they have no label
-/

namespace Propositional

/-- The sides of a conjunction by their words. -/
def Side.ofWord? (word : String) : Option Side :=
  if word == "left" || word == "l" then some .left
  else if word == "right" || word == "r" then some .right
  else none

/-- The directions of a biconditional by their words. -/
def Direction.ofWord? (word : String) : Option Direction :=
  if word == "l->r" || word == "ltr" || word == "l→r" then some .leftToRight
  else if word == "r->l" || word == "rtl" || word == "r→l" then some .rightToLeft
  else none

namespace Justification

/-- The rules that cite lines, with the number of lines each cites. -/
def arity? (rule : String) : Option Nat :=
  if ["MP", "MT", "HS", "ADJ", "DS"].contains rule then some 2
  else if ["SIMP", "IFF"].contains rule then some 1
  else none

/-- The lines that a document cites for a rule: integers, and as many as the rule cites. -/
def referencesOf (rule : String) (count : Nat) (data : Value) : Except Malformed (List Value) :=
  match (data.field? "refs").getD (.list []) with
  | .list refs =>
    if refs.all fun r => r.integer?.isSome then
      if refs.length = count then .ok refs else .error (.arity rule count refs.length)
    else .error (.references rule)
  | _ => .error (.references rule)

/-- The side that a document takes. -/
def sideOf (data : Value) : Except Malformed Side :=
  match Side.ofWord? (Text.small ((data.field? "pick").getD (.text "")).plain) with
  | some side => .ok side
  | none => .error .side

/-- A text without its spaces. -/
def withoutSpaces (s : String) : String :=
  String.ofList (s.toList.filter (· != ' '))

/-- The direction that a document names. -/
def directionOf (data : Value) : Except Malformed Direction :=
  match Direction.ofWord?
      (Text.small (withoutSpaces ((data.field? "dir").getD (.text "")).plain)) with
  | some direction => .ok direction
  | none => .error .direction

/-- The justification of a rule that cites lines. -/
def ofReferences (rule : String) (refs : List Value) (data : Value) :
    Except Malformed Justification :=
  match rule, refs with
  | "MP", [a, b] => .ok (.mp a b)
  | "MT", [a, b] => .ok (.mt a b)
  | "HS", [a, b] => .ok (.hs a b)
  | "ADJ", [a, b] => .ok (.adj a b)
  | "DS", [a, b] => .ok (.ds a b)
  | "SIMP", [n] => (sideOf data).map (.simp n)
  | "IFF", [n] => (directionOf data).map (.iff n)
  | _, _ => .error (.unknownRule (data.fieldD "rule"))

/-- The rule that a document names, in capitals and without space around it. -/
def ruleOf (data : Value) : String :=
  Text.upper (Text.strip ((data.field? "rule").getD (.text "")).plain)

/-- The axiom number of a document: any value of the size of one, two or three. -/
def axiomOf (data : Value) : Except Malformed Justification :=
  let n := data.fieldD "axiom"
  if n.equalsInteger 1 || n.equalsInteger 2 || n.equalsInteger 3 then .ok (.ax n)
  else .error .axiomNumber

/-- The justification that a document gives. -/
def ofValue (data : Value) : Except Malformed Justification :=
  if !data.isObject then .error .justification
  else
    let rule := ruleOf data
    if rule == "A1" then .ok (.ax (.int 1))
    else if rule == "A2" then .ok (.ax (.int 2))
    else if rule == "A3" then .ok (.ax (.int 3))
    else if rule == "AX" then axiomOf data
    else
      match arity? rule with
      | none => .error (.unknownRule (data.fieldD "rule"))
      | some count =>
        match referencesOf rule count data with
        | .error m => .error m
        | .ok refs => ofReferences rule refs data

/-- The fields of the document of a justification. -/
def fields : Justification → List (String × Value)
  | .ax n => [("rule", .text "AX"), ("axiom", n)]
  | .simp n side =>
    [("rule", .text "SIMP"), ("refs", .list [n]), ("pick", .text side.word)]
  | .iff n direction =>
    [("rule", .text "IFF"), ("refs", .list [n]), ("dir", .text direction.word)]
  | j => [("rule", .text j.rule), ("refs", .list j.references)]

/-- The document of a justification. -/
def toValue (j : Justification) : Value :=
  .object j.fields

end Justification

namespace Step

/-- The step that a document gives; without a label it has the label `line`. -/
def ofValue (line : Int) (data : Value) : Except Malformed Step :=
  if !data.isObject then .error .step
  else
    match (data.fieldD "formula").text? with
    | none => .error (.formula line)
    | some formula =>
      match ((data.field? "line").getD (.int line)).integer? with
      | none => .error (.label line)
      | some label =>
        match Justification.ofValue data with
        | .error m => .error m
        | .ok justification => .ok { line := label, formula, justification }

/-- The document of a step. -/
def toValue (s : Step) : Value :=
  .object ([("line", .int s.line), ("formula", .text s.formula)] ++ s.justification.fields)

/-- Steps from documents; a step without a label is labelled by its place from `line` on. -/
def ofValues (line : Int) : List Value → Except Malformed (List Step)
  | [] => .ok []
  | v :: vs =>
    match ofValue line v with
    | .error m => .error m
    | .ok s =>
      match ofValues (line + 1) vs with
      | .error m => .error m
      | .ok ss => .ok (s :: ss)

/-- The steps that a document lists behind a number of givens. -/
def listOfValue (givens : Int) (v : Value) : Except Malformed (List Step) :=
  match v with
  | .list items => ofValues (givens + 1) items
  | _ => .error .steps

end Step

end Propositional
