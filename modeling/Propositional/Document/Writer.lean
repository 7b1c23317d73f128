import Propositional.Document.Value

/-!
# Writing documents

A document is written on one line, or laid out with one item to a line and two spaces for each
level. In texts only quotes, backslashes and control characters are escaped.

## Main definitions

* `Document.textLiteral`: a text with its quotes
* `Document.compact`: the one-line form
* `Document.pretty`: the laid-out form
-/

namespace Propositional.Document

/-- One character inside a written text. -/
def escapeChar (c : Char) : List Char :=
  if c == '"' || c == '\\' then ['\\', c]
  else if c == '\n' then ['\\', 'n']
  else if c == '\r' then ['\\', 'r']
  else if c == '\t' then ['\\', 't']
  else if c.toNat == 0x8 then ['\\', 'b']
  else if c.toNat == 0xC then ['\\', 'f']
  else if c.toNat < 0x20 then ['\\', 'u'] ++ Text.hex 4 c.toNat
  else [c]

/-- A text with its quotes. -/
def textLiteral (s : String) : String :=
  String.ofList ('"' :: s.toList.flatMap escapeChar ++ ['"'])

/-- A floating-point number; what is no finite number has a word of its own. -/
def realLiteral (x : Binary64) : String :=
  if x.isNaN then "NaN"
  else if x.isFinite then x.literal
  else if x.negative then "-Infinity"
  else "Infinity"

mutual

/-- A document on one line. -/
def compact : Value → String
  | .null => "null"
  | .bool b => if b then "true" else "false"
  | .int n => Text.integer n
  | .real x => realLiteral x
  | .text s => textLiteral s
  | .list items => "[" ++ String.intercalate ", " (compactItems items) ++ "]"
  | .object fields => "\x7b" ++ String.intercalate ", " (compactFields fields) ++ "\x7d"

/-- The items of a list on one line. -/
def compactItems : List Value → List String
  | [] => []
  | v :: vs => compact v :: compactItems vs

/-- The fields of an object on one line. -/
def compactFields : List (String × Value) → List String
  | [] => []
  | (k, v) :: fs => (textLiteral k ++ ": " ++ compact v) :: compactFields fs

end

/-- The margin of a level. -/
def margin (level : Nat) : String :=
  String.ofList ('\n' :: List.replicate (2 * level) ' ')

/-- Parts between an opening and a closing mark, one to a line; no parts, no lines. -/
def layout (level : Nat) (opening closing : String) (parts : List String) : String :=
  if parts.isEmpty then opening ++ closing
  else
    opening ++ margin (level + 1) ++ String.intercalate ("," ++ margin (level + 1)) parts
      ++ margin level ++ closing

mutual

/-- A document laid out at a level. -/
def prettyAt (level : Nat) : Value → String
  | .list items => layout level "[" "]" (prettyItems (level + 1) items)
  | .object fields => layout level "\x7b" "\x7d" (prettyFields (level + 1) fields)
  | .null => "null"
  | .bool b => if b then "true" else "false"
  | .int n => Text.integer n
  | .real x => realLiteral x
  | .text s => textLiteral s

/-- The items of a list laid out at a level. -/
def prettyItems (level : Nat) : List Value → List String
  | [] => []
  | v :: vs => prettyAt level v :: prettyItems level vs

/-- The fields of an object laid out at a level. -/
def prettyFields (level : Nat) : List (String × Value) → List String
  | [] => []
  | (k, v) :: fs => (textLiteral k ++ ": " ++ prettyAt level v) :: prettyFields level fs

end

/-- A document laid out over lines. -/
def pretty (v : Value) : String :=
  prettyAt 0 v

end Propositional.Document
