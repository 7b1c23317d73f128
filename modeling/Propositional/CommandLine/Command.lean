import Propositional.CommandLine.Arguments
import Propositional.Document.Writer
import Propositional.Exercise

/-!
# Commands

The questions that are asked on the command line. A command is read from its arguments, may need
the texts of files, and prints an answer. Its exit status is zero if the answer is yes, one if it
is no, and two if there is none.

## Main definitions

* `Command`, `Command.ofArguments`: the commands and their arguments
* `Command.files`: the files that a command reads
* `Command.run`: what a command prints, and its exit status
* `Command.report`: the same with failures reported
-/

namespace Propositional

/-- A question asked on the command line. -/
inductive Command where
  /-- Checks a proof from a file, or a proof that shows how it is done. -/
  | check (file : Option String)
  /-- Prints a formula in its canonical form. -/
  | print (formula : String) (ascii : Bool)
  /-- Asks whether a formula is a tautology. -/
  | tautology (formula : String)
  /-- Asks whether premises entail a conclusion. -/
  | entails (premises : List String) (conclusion : String)
  /-- Prints a truth table. -/
  | table (formulas : List String)
  /-- Prints an instance of an axiom. -/
  | instantiate (number : Int) (alpha beta : String) (gamma : Option String)
  /-- Checks a solution of an exercise. An argument may be left empty. -/
  | exercise (catalog id proof : Option String)
deriving DecidableEq, Inhabited

namespace Command

/-! ## Arguments -/

/-- The option that spells connectives in the basic range. -/
def asciiOption : Arguments.Spec :=
  { key := "ascii", names := ["--ascii"], hasValue := false }

/-- The option that gives a conclusion. -/
def conclusionOption : Arguments.Spec :=
  { key := "conclusion", names := ["-c", "--conclusion"], hasValue := true }

/-- The option that gives a part of an axiom. -/
def partOption (name : String) : Arguments.Spec :=
  { key := name, names := ["--" ++ name], hasValue := true }

/-- The number of an axiom that a word gives. -/
def axiomNumber? (word : String) : Option Int :=
  match Text.readInteger word with
  | .ok n => if 1 ≤ n ∧ n ≤ 3 then some n else none
  | .error _ => none

/-- The command that the arguments of a name give. -/
def ofNamed (name : String) (args : List String) : Except Arguments.Refusal Command :=
  match name with
  | "check" => do
    match Arguments.words (← Arguments.read [] args) with
    | [] => return .check none
    | [file] => return .check (if file == "" then none else some file)
    | _ => .error .usage
  | "show" => do
    let items ← Arguments.read [asciiOption] args
    match Arguments.words items with
    | [formula] => return .print formula (Arguments.has "ascii" items)
    | _ => .error .usage
  | "taut" => do
    match Arguments.words (← Arguments.read [] args) with
    | [formula] => return .tautology formula
    | _ => .error .usage
  | "entails" => do
    let items ← Arguments.read [conclusionOption] args
    match Arguments.together? items, Arguments.value? "conclusion" items with
    | some premises, some conclusion => return .entails premises conclusion
    | _, _ => .error .usage
  | "table" => do
    match Arguments.words (← Arguments.read [] args) with
    | f :: fs => return .table (f :: fs)
    | [] => .error .usage
  | "axiom" => do
    let items ← Arguments.read [partOption "alpha", partOption "beta", partOption "gamma"] args
      fun word => (axiomNumber? word).isSome
    match (Arguments.words items).map axiomNumber?, Arguments.value? "alpha" items,
        Arguments.value? "beta" items with
    | [some n], some alpha, some beta =>
      return .instantiate n alpha beta (Arguments.value? "gamma" items)
    | _, _, _ => .error .usage
  | "exercise" => do
    match Arguments.singles (← Arguments.read [] args) with
    | [catalog, id, proof] => return .exercise catalog id proof
    | _ => .error .usage
  | _ => .error .usage

/-- The command that arguments give; the first word names it. -/
def ofArguments : List String → Except Arguments.Refusal Command
  | [] => .error .usage
  | s :: rest =>
    match Arguments.read [] [s] with
    | .ok [.word name] => ofNamed name rest
    | .ok _ => .error .usage
    | .error .help => .error .help
    | .error .usage =>
      if Arguments.classify [Arguments.help] s == [.unknown] then
        match ofArguments rest with
        | .error .help => .error .help
        | _ => .error .usage
      else .error .usage

/-! ## Answers -/

/-- The name of a file without what does not count in it: empty parts, parts that are a single
point, a slash at the end. -/
def fileName (file : String) : String :=
  let parts := (file.splitOn "/").filter fun part => part != "" && part != "."
  (if file.toList.head? == some '/' then "/" else "") ++ String.intercalate "/" parts

/-- The files that a command reads. -/
def files : Command → List String
  | .check (some file) => [fileName file]
  | .exercise catalog _ proof => ([catalog, proof].filterMap id).map fileName
  | _ => []

/-- What a command prints, and its exit status. -/
structure Answer where
  output : String
  status : Nat
deriving DecidableEq, Inhabited

/-- An answer of one line. -/
def line (text : String) (yes : Bool) : Answer :=
  { output := text ++ "\n", status := if yes then 0 else 1 }

/-- The proof that shows how it is done. -/
def demonstration : Proof :=
  { given := ["A", "(A->B)"]
    steps := [{ line := 3, formula := "B", justification := .mp (.int 1) (.int 2) }]
    goal := some "B" }

/-- The text of a file. -/
def fileText (fileOf : String → Option String) (file : String) : Except Failure String :=
  if file.toList.contains '\x00' then .error (.breach .fileName)
  else
    match fileOf (fileName file) with
    | some text => .ok text
    | none => .error .noFile

/-- The document of a file. -/
def fileValue (fileOf : String → Option String) (file : String) : Except Failure Value := do
  (Document.read (← fileText fileOf file)).mapError .ofDocumentFault

/-- Formulas from their texts. -/
def parseAll (s : Settings) : List String → Outcome (List Formula)
  | [] => .pure []
  | text :: texts => do
    let f ← .parse s text
    let fs ← parseAll s texts
    return f :: fs

/-- The steps of a solution: a list, or an object that holds one. -/
def stepsOf (data : Value) : Value :=
  if data.isObject then (data.field? "steps").getD (.list []) else data

/-- Checks a proof from a document. -/
def runCheck (s : Settings) (p : Proof) : Outcome Answer := do
  let verdict ← Outcome.check s p
  return line ("=== Verification Report ===\n" ++ Document.pretty verdict.toValue) verdict.ok

/-- The file that an argument names; one that is left empty names none. -/
def namedFile : Option String → Except Failure String
  | some file => .ok file
  | none => .error (.breach .notText)

/-- The exercise that an argument names; one that is left empty names none. -/
def namedExercise (exercises : List Exercise) : Option String → Except Failure Exercise
  | some id => Catalog.find exercises id
  | none => .error (.notFound (.list []))

/-- Checks a solution of an exercise of a catalog. -/
def runExercise (s : Settings) (fileOf : String → Option String)
    (catalog id proof : Option String) : Outcome Answer := do
  let catalogFile ← .ofExcept (namedFile catalog)
  let text ← .ofExcept (fileText fileOf catalogFile)
  let exercises ← .ofExcept (Catalog.read text)
  let exercise ← .ofExcept (namedExercise exercises id)
  let proofFile ← .ofExcept (namedFile proof)
  let data ← .ofExcept (fileValue fileOf proofFile)
  let steps ← .ofExcept
    ((Step.listOfValue exercise.given.length (stepsOf data)).mapError .malformed)
  let verdict ← exercise.verify s steps
  return line (Document.pretty verdict.toValue) verdict.ok

/-- What a command prints, and its exit status, when it does not fail. -/
def run (s : Settings) (fileOf : String → Option String) : Command → Outcome Answer
  | .check none => runCheck s demonstration
  | .check (some file) => do
    let data ← .ofExcept (fileValue fileOf file)
    let p ← .ofExcept (Proof.ofValue data)
    runCheck s p
  | .print formula ascii => do
    let f ← .parse s formula
    let text ← .write f
    return line (if ascii then Formula.ascii text else text) true
  | .tautology formula => do
    let f ← .parse s formula
    let yes ← .isTautology s f
    let text ← .write f
    return line (text ++ ": " ++ if yes then "tautology" else "not a tautology") yes
  | .entails premises conclusion => do
    let ps ← parseAll s premises
    let c ← .parse s conclusion
    let e ← .entails s ps c
    return line (Document.pretty e.toValue) e.valid
  | .table formulas => do
    let fs ← parseAll s formulas
    let t ← .truthTable fs
    return line (Document.pretty t.toValue) true
  | .instantiate number alpha beta gamma => do
    let f ← .build s (.int number) [("alpha", some alpha), ("beta", some beta), ("gamma", gamma)]
    let text ← .write f
    return line text true
  | .exercise catalog id proof => runExercise s fileOf catalog id proof

/-! ## Reports -/

/-- What is written about a failure. A breach is not written about. -/
def complaint? (f : Failure) : Option String :=
  match f with
  | .text e => some ("parse error: " ++ e.report)
  | .notFound what => some ("not found: " ++ what.display)
  | .malformed m => some ("bad input: " ++ m.message)
  | .noFile => some "cannot read input"
  | .notADocument => some "cannot read input"
  | f => if f.isReported then some ("error: " ++ f.message) else none

/-- What a command leaves behind: what it printed, what it complained about, its exit status. -/
structure Report where
  output : String
  complaint : String
  status : Nat
deriving DecidableEq, Inhabited

/-- The report of a command; a breach has none. What is printed has to be a text that the output
takes, such as UTF-8 takes no half of a surrogate pair. A complaint is always taken. -/
def report (takes : String → Bool) (x : Outcome Answer) : Except Failure Report :=
  match x.result with
  | .ok a =>
    if takes a.output then .ok { output := a.output, complaint := "", status := a.status }
    else .error (.breach .unencodable)
  | .error f =>
    match complaint? f with
    | some text => .ok { output := "", complaint := text ++ "\n", status := 2 }
    | none => .error f

end Command

end Propositional
