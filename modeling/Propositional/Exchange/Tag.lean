import Propositional.Exchange.StepForm
import Propositional.Failure

/-!
# Tags

The short form of a justification: the letters of the rule, up to two line numbers divided by a
comma or white space, a side behind a point or white space, and a direction behind white space,
as in `MP 1,2`, `SIMP 3.L` and `IFF 4 L->R`. White space around the parts is free. What was
written is then read as the document of a justification with the same fields.

## Main definitions

* `Tag`: the parts of a tag
* `Tag.split?`: the parts of a text
* `Justification.ofTag`: the justification that a tag stands for
-/

namespace Propositional

/-- The parts of a tag. -/
structure Tag where
  rule : List Char
  first : Option (List Char)
  second : Option (List Char)
  side : Option Char
  direction : Option (List Char)
deriving DecidableEq, Inhabited

namespace Tag

/-- Whether a character is a letter of the basic alphabet. -/
def isLetter (c : Char) : Bool :=
  ('A' ≤ c && c ≤ 'Z') || ('a' ≤ c && c ≤ 'z')

/-- Whether a character names a side. -/
def isSideLetter (c : Char) : Bool :=
  c == 'L' || c == 'R' || c == 'l' || c == 'r'

/-- What follows the white space at the front, if there is any. -/
def pastBlank? : List Char → Option (List Char)
  | [] => none
  | c :: cs => if Text.isBlank c then some (cs.dropWhile Text.isBlank) else none

/-- A row of decimal digits at the front, and what follows it. -/
def digits? (cs : List Char) : Option (List Char × List Char) :=
  match cs.takeWhile Text.isDecimal with
  | [] => none
  | ds => some (ds, cs.dropWhile Text.isDecimal)

/-- What follows a divider: white space, perhaps with one `mark` in it, or the mark alone. -/
def pastDivider? (mark : Char) (cs : List Char) : Option (List Char) :=
  match cs.dropWhile Text.isBlank with
  | [] => none
  | c :: rest => if c == mark then some (rest.dropWhile Text.isBlank) else pastBlank? cs

/-- The first line number, behind white space if there is any. -/
def firstNumber (cs : List Char) : Option (List Char) × List Char :=
  match digits? (cs.dropWhile Text.isBlank) with
  | none => (none, cs)
  | some (ds, rest) => (some ds, rest)

/-- The second line number, behind a comma or white space. -/
def secondNumber (cs : List Char) : Option (List Char) × List Char :=
  match (pastDivider? ',' cs).bind digits? with
  | none => (none, cs)
  | some (ds, rest) => (some ds, rest)

/-- A side, behind a point or white space, and what follows it. -/
def side? (cs : List Char) : Option (Char × List Char) :=
  match pastDivider? '.' cs with
  | some (c :: rest) => if isSideLetter c then some (c, rest) else none
  | _ => none

/-- The letters and the arrow of a direction, written without the white space between them. -/
def directionBody? (cs : List Char) : Option (List Char × List Char) :=
  match cs with
  | [] => none
  | a :: cs =>
    if isSideLetter a then
      let gap := cs.takeWhile Text.isBlank
      let arrow : Option (List Char) := match cs.dropWhile Text.isBlank with
        | '-' :: '>' :: rest => some rest
        | '→' :: rest => some rest
        | _ => none
      match arrow with
      | none => none
      | some rest =>
        let gap' := rest.takeWhile Text.isBlank
        match rest.dropWhile Text.isBlank with
        | [] => none
        | b :: rest =>
          if isSideLetter b then some (a :: gap ++ ['-', '>'] ++ gap' ++ [b], rest) else none
    else none

/-- A direction, behind white space, that nothing but white space follows. -/
def direction? (cs : List Char) : Option (List Char) :=
  match (pastBlank? cs).bind directionBody? with
  | none => none
  | some (d, rest) => if rest.all Text.isBlank then some d else none

/-- What may end a tag: a direction or nothing, and white space. -/
def ending? (cs : List Char) : Option (Option (List Char)) :=
  match direction? cs with
  | some d => some (some d)
  | none => if cs.all Text.isBlank then some none else none

/-- The side and the direction at the end of a tag; a letter is a side if what follows lets it be
one. -/
def sideAndEnding? (cs : List Char) : Option (Option Char × Option (List Char)) :=
  match side? cs with
  | none => (ending? cs).map (none, ·)
  | some (c, rest) =>
    match ending? rest with
    | some d => some (some c, d)
    | none => (ending? cs).map (none, ·)

/-- The parts of a text without white space around it. -/
def split? (cs : List Char) : Option Tag :=
  match cs.takeWhile isLetter with
  | [] => none
  | rule =>
    let (first, rest) := firstNumber (cs.dropWhile isLetter)
    let (second, rest) := secondNumber rest
    match sideAndEnding? rest with
    | none => none
    | some (side, direction) => some { rule, first, second, side, direction }

/-- The rule of a tag in capitals; an axiom is named with its number. -/
def ruleName (t : Tag) : List Char :=
  let name := t.rule.map Char.toUpper
  match t.first with
  | some n => if name == ['A'] || name == ['A', 'X'] then 'A' :: n else name
  | none => name

/-- The line numbers of a tag, unless one is too long. -/
def numbers? (t : Tag) : Option (List Nat) :=
  ([t.first, t.second].filterMap id).mapM Text.naturalWithin?

/-- The document of a tag with its line numbers. -/
def toValue (t : Tag) (numbers : List Nat) : Value :=
  let refs := numbers.map fun (n : Nat) => Value.int n
  let side := t.side.map fun c => ("pick", Value.text (String.ofList [c]))
  let direction := t.direction.map fun d => ("dir", Value.text (String.ofList d))
  .object ([("rule", .text (String.ofList t.ruleName)), ("refs", .list refs)]
    ++ side.toList ++ direction.toList)

end Tag

/-- The justification that a tag stands for. -/
def Justification.ofTag (tag : String) : Except Failure Justification :=
  match Tag.split? (Text.trim tag.toList) with
  | none => .error (.malformed (.tag tag))
  | some t =>
    match t.numbers? with
    | none => .error (.breach .oversized)
    | some numbers => (Justification.ofValue (t.toValue numbers)).mapError .malformed

end Propositional
