import Propositional.Formula.Basic

/-!
# Printing formulas

The canonical text of a formula has no spaces and only the parentheses that the grammar needs.
A second form spells every connective in the basic range of characters.

## Main definitions

* `Formula.chars`, `Formula.text`: the canonical text
* `Formula.ascii`: a text with its connectives in the basic range
-/

namespace Propositional

/-- The canonical spelling of a connective. -/
def Connective.glyph : Connective → List Char
  | .and => ['∧']
  | .or => ['∨']
  | .imp => ['-', '>']
  | .iff => ['↔']

namespace Formula

/-- Text with parentheses around it if they are needed. -/
def enclose (needed : Bool) (cs : List Char) : List Char :=
  if needed then '(' :: cs ++ [')'] else cs

/-- Whether the left operand of a connective needs parentheses. -/
def enclosesLeft (op : Connective) (f : Formula) : Bool :=
  if op.isRightAssociative then f.rank ≤ op.rank else f.rank < op.rank

/-- Whether the right operand of a connective needs parentheses. -/
def enclosesRight (op : Connective) (f : Formula) : Bool :=
  if op.isRightAssociative then f.rank < op.rank else f.rank ≤ op.rank

/-- The characters of the canonical text. -/
def chars : Formula → List Char
  | .var name => name.toList
  | .neg f => '¬' :: enclose (f.rank < 5) f.chars
  | .bin op l r =>
    enclose (enclosesLeft op l) l.chars ++ op.glyph ++ enclose (enclosesRight op r) r.chars

/-- The canonical text of a formula. -/
def text (f : Formula) : String :=
  String.ofList f.chars

/-- A character, or the spelling of the connective it is in the basic range. -/
def asciiChar : Char → List Char
  | '¬' => ['~']
  | '∧' => ['^']
  | '∨' => ['v']
  | '↔' => ['<', '-', '>']
  | '→' => ['-', '>']
  | c => [c]

/-- A text with its connectives spelt in the basic range. -/
def ascii (s : String) : String :=
  String.ofList (s.toList.flatMap asciiChar)

end Formula

end Propositional
