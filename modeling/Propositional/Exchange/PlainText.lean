import Propositional.Exchange.Tag

/-!
# Proofs in plain text

A proof is written line by line. A header line gives a premise or the goal; any other line is a
step with its tag in brackets, and perhaps a label with a point before it. Blank lines and lines
that begin with `#` are passed over. A step without a label is labelled by its place behind all
the givens, wherever they stand.

## Main definitions

* `PlainText.Line`, `PlainText.classify`: what a line says
* `Proof.ofText`: the proof that a text writes
-/

namespace Propositional

namespace PlainText

/-- What a line says. -/
inductive Line where
  | skipped
  | given (text : List Char)
  | goal (text : List Char)
  | step (label : Option (List Char)) (formula tag : List Char)
deriving DecidableEq, Inhabited

/-- A letter in the form in which header words are compared: small, with the long s read as s and
the Turkish letters as i. -/
def foldLetter (c : Char) : Char :=
  if c == 'ſ' then 's' else if c == 'ı' || c == 'İ' then 'i' else c.toLower

/-- What follows a header word and its colon. -/
def headerText? (word cs : List Char) : Option (List Char) :=
  if (cs.take word.length).map foldLetter == word then
    match (cs.drop word.length).dropWhile Text.isBlank with
    | ':' :: text => if text.isEmpty then none else some (Text.trim text)
    | _ => none
  else none

/-- The words that head a premise or the goal. -/
def givenWord : List Char := ['g', 'i', 'v', 'e', 'n']

@[inherit_doc givenWord]
def premiseWord : List Char := ['p', 'r', 'e', 'm', 'i', 's', 'e']

@[inherit_doc givenWord]
def goalWord : List Char := ['g', 'o', 'a', 'l']

/-- A header line. -/
def header? (cs : List Char) : Option Line :=
  match headerText? givenWord cs with
  | some text => some (.given text)
  | none =>
    match headerText? premiseWord cs with
    | some text => some (.given text)
    | none => (headerText? goalWord cs).map .goal

/-- A tag in brackets that ends a line, with white space around it. -/
def bracketed? (cs : List Char) : Option (List Char) :=
  match cs.dropWhile Text.isBlank with
  | '[' :: body =>
    match body.takeWhile (· != ']'), body.dropWhile (· != ']') with
    | [], _ => none
    | tag, ']' :: rest => if rest.all Text.isBlank then some tag else none
    | _, _ => none
  | _ => none

/-- Cuts a line at the first place behind a character where a bracketed tag ends it. -/
def cut? : List Char → Option (List Char × List Char)
  | [] => none
  | c :: cs =>
    match bracketed? cs with
    | some tag => some ([c], tag)
    | none => (cut? cs).map fun r => (c :: r.1, r.2)

/-- The label of a step at the front of a line, and what follows its point. -/
def label? (cs : List Char) : Option (List Char × List Char) :=
  match cs.takeWhile Text.isDecimal, cs.dropWhile Text.isDecimal with
  | [], _ => none
  | ds, '.' :: rest => some (ds, rest)
  | _, _ => none

/-- Cuts what follows a label, the white space in front left out as far as a formula remains. -/
def cutBehindLabel? (cs : List Char) : Option (List Char × List Char) :=
  let width := (cs.takeWhile Text.isBlank).length
  (List.range (width + 1)).reverse.findSome? fun k => cut? (cs.drop k)

/-- A step line. -/
def step? (cs : List Char) : Option Line :=
  let labelled := (label? cs).bind fun l =>
    (cutBehindLabel? l.2).map fun r => Line.step (some l.1) r.1 r.2
  match labelled with
  | some line => some line
  | none => (cut? cs).map fun r => .step none r.1 r.2

/-- What a line says, if it says anything. -/
def classify (raw : List Char) : Except Malformed Line :=
  let cs := Text.trim raw
  match cs with
  | [] => .ok .skipped
  | '#' :: _ => .ok .skipped
  | cs =>
    match header? cs with
    | some line => .ok line
    | none =>
      match step? cs with
      | some line => .ok line
      | none => .error (.proofLine (String.ofList cs))

/-- What the lines of a text say. -/
def classifyAll : List (List Char) → Except Malformed (List Line)
  | [] => .ok []
  | l :: ls =>
    match classify l with
    | .error m => .error m
    | .ok line =>
      match classifyAll ls with
      | .error m => .error m
      | .ok lines => .ok (line :: lines)

/-- The premise of a line. -/
def given? : Line → Option String
  | .given text => some (String.ofList text)
  | _ => none

/-- The goal of a line. -/
def goal? : Line → Option String
  | .goal text => some (String.ofList text)
  | _ => none

/-- The label of a step: what its digits write, or else its place. -/
def labelOf (line : Int) : Option (List Char) → Except Failure Int
  | none => .ok line
  | some ds =>
    match Text.naturalWithin? ds with
    | some n => .ok n
    | none => .error (.breach .oversized)

/-- The steps of lines, labelled by their places from `line` on where they have no label. -/
def steps (line : Int) : List Line → Except Failure (List Step)
  | [] => .ok []
  | .step label formula tag :: rest =>
    match labelOf line label with
    | .error f => .error f
    | .ok label =>
      match Justification.ofTag (String.ofList tag) with
      | .error f => .error f
      | .ok justification =>
        match steps (line + 1) rest with
        | .error f => .error f
        | .ok ss =>
          .ok ({ line := label, formula := String.ofList formula, justification } :: ss)
  | _ :: rest => steps line rest

end PlainText

/-- The proof that a text writes; the last goal counts. -/
def Proof.ofText (text : String) : Except Failure Proof :=
  match PlainText.classifyAll (Text.lines text.toList) with
  | .error m => .error (.malformed m)
  | .ok lines =>
    let given := lines.filterMap PlainText.given?
    match PlainText.steps (given.length + 1) lines with
    | .error f => .error f
    | .ok steps => .ok { given, steps, goal := (lines.filterMap PlainText.goal?).getLast? }

/-- The proof that a value writes as text. -/
def Proof.ofTextValue (v : Value) : Except Failure Proof :=
  match v with
  | .text text => Proof.ofText text
  | _ => .error (.malformed .proofText)

end Propositional
