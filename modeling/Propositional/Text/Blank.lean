import Propositional.Text.CharSet

/-!
# White space and lines

White space is what the formula reader skips, what a text is trimmed of, and what separates the
parts of a plain-text proof. A text is cut into lines at every line break of the character
standard, not only at the line feed.

## Main definitions

* `isBlank`: white space
* `trim`: a text without the white space at its ends
* `isLineBreak`, `lines`: the lines of a text
-/

namespace Propositional.Text

/-- The characters that count as white space. -/
def blanks : CharSet :=
  [(0x9, 0xD), (0x1C, 0x20), (0x85, 0x85), (0xA0, 0xA0), (0x1680, 0x1680), (0x2000, 0x200A),
   (0x2028, 0x2029), (0x202F, 0x202F), (0x205F, 0x205F), (0x3000, 0x3000)]

/-- Whether a character is white space. -/
def isBlank (c : Char) : Bool :=
  blanks.contains c

/-- The characters of a text without the white space at either end. -/
def trim (cs : List Char) : List Char :=
  ((cs.dropWhile isBlank).reverse.dropWhile isBlank).reverse

/-- A text without the white space at either end. -/
def strip (s : String) : String :=
  String.ofList (trim s.toList)

/-- The characters that end a line. -/
def lineBreaks : CharSet :=
  [(0xA, 0xD), (0x1C, 0x1E), (0x85, 0x85), (0x2028, 0x2029)]

/-- Whether a character ends a line. -/
def isLineBreak (c : Char) : Bool :=
  lineBreaks.contains c

/-- The lines of a text without their ends; a carriage return and the line feed behind it are one
line end, and a line end at the end of the text opens no further line. -/
def lines : List Char → List (List Char)
  | [] => []
  | '\r' :: '\n' :: cs => [] :: lines cs
  | c :: cs =>
    if isLineBreak c then [] :: lines cs
    else
      match lines cs with
      | [] => [[c]]
      | l :: ls => (c :: l) :: ls

end Propositional.Text
