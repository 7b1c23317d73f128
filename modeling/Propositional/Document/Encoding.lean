import Propositional.Document.Reader

/-!
# Encodings of documents

A document arrives as bytes. They write its text in one of three ways: in a varying number of
bytes for each character, in pairs of bytes, or in groups of four, the last two with either end
first. A document begins with characters of the basic range, so zeros among its first bytes tell
which it is.

## Main definitions

* `Document.Encoding`, `Document.Encoding.detect`: the ways, and which one some bytes are written in
* `Document.decode?`: the text that the bytes of a text write
-/

namespace Propositional.Document

/-- How bytes write a text. -/
inductive Encoding where
  | varying
  | pairs (smallFirst : Bool)
  | fours (smallFirst : Bool)
deriving DecidableEq, Inhabited

/-- The way that the first bytes tell; four of them are enough. -/
def Encoding.detect : List Nat → Encoding
  | [a, b] => if a == 0 then .pairs false else if b == 0 then .pairs true else .varying
  | [a, b, c, d] =>
    if a == 0 then if b == 0 then .fours false else .pairs false
    else if b == 0 then if c == 0 && d == 0 then .fours true else .pairs true
    else .varying
  | _ => .varying

/-- The number that two digits of a base write. -/
def combine (smallFirst : Bool) (base a b : Nat) : Nat :=
  if smallFirst then a + base * b else base * a + b

/-- The numbers that pairs of digits of a base write, if no digit is left over. -/
def combineAll (smallFirst : Bool) (base : Nat) : List Nat → Option (List Nat)
  | [] => some []
  | [_] => none
  | a :: b :: rest => (combineAll smallFirst base rest).map (combine smallFirst base a b :: ·)

/-- The numbers that groups of four bytes write, if each is that of a character. -/
def codePoints (smallFirst : Bool) (bytes : List Nat) : Option (List Nat) :=
  ((combineAll smallFirst 0x100 bytes).bind (combineAll smallFirst 0x10000)).filter
    fun ns => ns.all (· ≤ 0x10FFFF)

/-- A text without a byte order mark in front. -/
def withoutMark (s : String) : String :=
  match s.toList with
  | c :: cs => if c.toNat == 0xFEFF then String.ofList cs else s
  | [] => s

/-- The bytes of a text. -/
def bytesOf (s : String) : List Nat :=
  (Text.send s).toUTF8.toList.map UInt8.toNat

/-- The text that the bytes of a text write, if they write one. -/
def decode? (s : String) : Option String :=
  let bytes := bytesOf s
  match Encoding.detect (bytes.take 4) with
  | .varying => some (withoutMark s)
  | .pairs smallFirst =>
    (combineAll smallFirst 0x100 bytes).map fun units => String.ofList (joinUnits units)
  | .fours smallFirst =>
    (codePoints smallFirst bytes).map fun ns => String.ofList (ns.flatMap Text.hold)

end Propositional.Document
