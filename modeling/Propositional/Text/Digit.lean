import Propositional.Text.Blank

/-!
# Digits and written integers

Decimal digits come in blocks of ten, one block for each script that has them. Digits of other
kinds, such as superscripts and circled digits, may stand inside a name but never in a number.

## Main definitions

* `decimalValue?`: the value of a decimal digit of any script
* `isDigit`: a digit of any kind
* `natural`: the number that a row of decimal digits writes
* `integer`: the written form of an integer
* `readInteger`: an integer written with a sign, underscores between digits and space around it
* `digitLimit`: the most digits that a written integer may have
* `numberLimit`: the least number that is too long
-/

namespace Propositional.Text

/-- The zeros of the blocks of ten decimal digits. -/
def zeros : List Nat :=
  [0x30, 0x660, 0x6F0, 0x7C0, 0x966, 0x9E6, 0xA66, 0xAE6, 0xB66, 0xBE6, 0xC66, 0xCE6, 0xD66,
   0xDE6, 0xE50, 0xED0, 0xF20, 0x1040, 0x1090, 0x17E0, 0x1810, 0x1946, 0x19D0, 0x1A80, 0x1A90,
   0x1B50, 0x1BB0, 0x1C40, 0x1C50, 0xA620, 0xA8D0, 0xA900, 0xA9D0, 0xA9F0, 0xAA50, 0xABF0,
   0xFF10, 0x104A0, 0x10D30, 0x11066, 0x110F0, 0x11136, 0x111D0, 0x112F0, 0x11450, 0x114D0,
   0x11650, 0x116C0, 0x11730, 0x118E0, 0x11950, 0x11C50, 0x11D50, 0x11DA0, 0x16A60, 0x16AC0,
   0x16B50, 0x1D7CE, 0x1D7D8, 0x1D7E2, 0x1D7EC, 0x1D7F6, 0x1E140, 0x1E2F0, 0x1E950, 0x1FBF0]

/-- The digits that are no decimal digits. -/
def otherDigits : CharSet :=
  [(0xB2, 0xB3), (0xB9, 0xB9), (0x1369, 0x1371), (0x19DA, 0x19DA), (0x2070, 0x2070),
   (0x2074, 0x2079), (0x2080, 0x2089), (0x2460, 0x2468), (0x2474, 0x247C), (0x2488, 0x2490),
   (0x24EA, 0x24EA), (0x24F5, 0x24FD), (0x24FF, 0x24FF), (0x2776, 0x277E), (0x2780, 0x2788),
   (0x278A, 0x2792), (0x10A40, 0x10A43), (0x10E60, 0x10E68), (0x11052, 0x1105A),
   (0x1F100, 0x1F10A)]

/-- The value of a decimal digit of any script. -/
def decimalValue? (c : Char) : Option Nat :=
  (zeros.find? fun z => z ≤ c.toNat && c.toNat < z + 10).map (c.toNat - ·)

/-- Whether a character is a decimal digit of some script. -/
def isDecimal (c : Char) : Bool :=
  (decimalValue? c).isSome

/-- Whether a character is a digit of any kind. -/
def isDigit (c : Char) : Bool :=
  isDecimal c || otherDigits.contains c

/-- The number that a row of decimal digits writes. -/
def natural (ds : List Char) : Nat :=
  ds.foldl (fun n d => 10 * n + (decimalValue? d).getD 0) 0

/-- The written form of an integer, in basic digits. -/
def integer (n : Int) : String :=
  (if n < 0 then "-" else "") ++ String.ofList (Nat.toDigits 10 n.natAbs)

/-- Whether a character may stand around a written integer: white space, the four separators of
the basic range excepted. -/
def isMargin (c : Char) : Bool :=
  isBlank c && !(0x1C ≤ c.toNat && c.toNat ≤ 0x1F)

/-- The most digits that a written integer may have: neither a text with more is read as an integer
nor an integer with more written. -/
def digitLimit : Nat := 4300

/-- The least number with more than `k` digits. -/
def leastLonger (k : Nat) : Nat :=
  Nat.pow 10 k

/-- The least number that is too long. -/
def numberLimit : Nat :=
  leastLonger digitLimit

/-- The number that a row of decimal digits writes, unless it is too long. -/
def naturalWithin? (ds : List Char) : Option Nat :=
  if ds.length ≤ digitLimit then some (natural ds) else none

/-- Why a text is not read as an integer. -/
inductive IntegerFault where
  /-- It writes none. -/
  | noInteger
  /-- It writes one with too many digits. -/
  | oversized (digits : Nat)
deriving DecidableEq, Inhabited

/-- Whether underscores only stand between digits, one at a time. -/
def isGrouped : List Char → Bool
  | [] => false
  | [d] => d != '_'
  | d :: e :: cs => d != '_' && if e == '_' then isGrouped cs else isGrouped (e :: cs)

/-- The number that digits, with underscores between them, write. What follows the digits is only
looked at if there are not too many. -/
def readGrouped (cs : List Char) : Except IntegerFault Nat :=
  let isPart := fun c => isDecimal c || c == '_'
  let digits := (cs.takeWhile isPart).filter (· != '_')
  if !isGrouped (cs.takeWhile isPart) then .error .noInteger
  else if digitLimit < digits.length then .error (.oversized digits.length)
  else if (cs.dropWhile isPart).all isMargin then .ok (natural digits)
  else .error .noInteger

/-- The integer that a text writes: decimal digits of any scripts, single underscores between
them, one sign before them, and white space around it all. -/
def readInteger (s : String) : Except IntegerFault Int :=
  match s.toList.dropWhile isMargin with
  | '-' :: cs => (readGrouped cs).map fun n => -(n : Int)
  | '+' :: cs => (readGrouped cs).map fun n => (n : Int)
  | cs => (readGrouped cs).map fun n => (n : Int)

/-- The basic digits are decimal digits. -/
theorem isDecimal_of_isDigit {c : Char} (h : c.isDigit = true) : isDecimal c = true := by
  have h' : 48 ≤ c.toNat ∧ c.toNat ≤ 57 := by
    simp only [Char.isDigit, Bool.and_eq_true, decide_eq_true_eq] at h
    exact ⟨h.1, h.2⟩
  have hf : (zeros.find? fun z => z ≤ c.toNat && c.toNat < z + 10) = some 0x30 := by
    rw [zeros, List.find?_cons_of_pos]
    simp only [Bool.and_eq_true, decide_eq_true_eq]
    omega
  simp [isDecimal, decimalValue?, hf]

end Propositional.Text
