/-!
# Binary floating-point numbers

A number of the 64-bit binary interchange format, kept as its word. All arithmetic is exact
arithmetic on natural numbers: a finite number is a significand times a power of two, and a
decimal is read by rounding a quotient to the nearest such number.

## Main definitions

* `Binary64`: a number, by its word
* `Binary64.significand`, `Binary64.exponent`: a finite number as `significand * 2 ^ exponent`
* `Binary64.ofQuotient`, `Binary64.ofDecimal`: the nearest number, a half going to the even one
* `Binary64.truncate?`: the integer part
-/

namespace Propositional

/-- A 64-bit binary floating-point number, by its word. -/
structure Binary64 where
  word : Nat
deriving DecidableEq, Inhabited

namespace Binary64

/-- A power of two. -/
def twoTo (n : Nat) : Nat := Nat.pow 2 n

/-- A power of ten. -/
def tenTo (n : Nat) : Nat := Nat.pow 10 n

/-- The sign bit. -/
def negative (x : Binary64) : Bool :=
  x.word / twoTo 63 % 2 == 1

/-- The eleven bits of the biased exponent. -/
def biased (x : Binary64) : Nat :=
  x.word / twoTo 52 % twoTo 11

/-- The fifty-two bits of the fraction. -/
def fraction (x : Binary64) : Nat :=
  x.word % twoTo 52

/-- Neither an infinity nor a number that is not a number. -/
def isFinite (x : Binary64) : Bool :=
  x.biased != 2047

/-- One of the words that stand for no number. -/
def isNaN (x : Binary64) : Bool :=
  x.biased == 2047 && x.fraction != 0

/-- The significand of a finite number. -/
def significand (x : Binary64) : Nat :=
  if x.biased = 0 then x.fraction else twoTo 52 + x.fraction

/-- The power of two that the significand of a finite number is multiplied by. -/
def exponent (x : Binary64) : Int :=
  if x.biased = 0 then -1074 else (x.biased : Int) - 1075

/-- Whether a number is zero, of either sign. -/
def isZero (x : Binary64) : Bool :=
  x.biased == 0 && x.fraction == 0

/-- The words of one over zero and of its negative. -/
def infinity (negative : Bool) : Binary64 :=
  ⟨(if negative then twoTo 63 else 0) + 2047 * twoTo 52⟩

/-- A word that stands for no number. -/
def nan : Binary64 :=
  ⟨2047 * twoTo 52 + twoTo 51⟩

/-- A quotient rounded to the nearest integer, a half going to the even one. -/
def roundQuotient (num den : Nat) : Nat :=
  let q := num / den
  let r := num % den
  if 2 * r < den then q
  else if den < 2 * r then q + 1
  else q + q % 2

/-- A quotient divided by a power of two, as a quotient. -/
def scale (num den : Nat) (e : Int) : Nat × Nat :=
  if 0 ≤ e then (num, den * twoTo e.toNat) else (num * twoTo (-e).toNat, den)

/-- The number nearest to a quotient, a half going to the even significand. -/
def ofQuotient (negative : Bool) (num den : Nat) : Binary64 :=
  let sign := if negative then twoTo 63 else 0
  if num = 0 then ⟨sign⟩
  else
    let guess : Int := (num.log2 : Int) - den.log2 - 52
    let fits (e : Int) : Bool := let s := scale num den e; s.1 / s.2 < twoTo 53
    let e := max (-1074) (if fits (guess - 1) then guess - 1 else guess)
    let s := scale num den e
    let m := roundQuotient s.1 s.2
    let (m, e) := if m = twoTo 53 then (twoTo 52, e + 1) else (m, e)
    if 971 < e then infinity negative
    else if m < twoTo 52 then ⟨sign + m⟩
    else ⟨sign + (e + 1075).toNat * twoTo 52 + (m - twoTo 52)⟩

/-- The number nearest to `digits * 10 ^ e`. Powers far outside the range of the format are
decided without being computed. -/
def ofDecimal (negative : Bool) (digits : Nat) (e : Int) : Binary64 :=
  if 400 < e then (if digits = 0 then ofQuotient negative 0 1 else infinity negative)
  else if 0 ≤ e then ofQuotient negative (digits * tenTo e.toNat) 1
  else if (-e).toNat > 400 + (Nat.toDigits 10 digits).length then ofQuotient negative 0 1
  else ofQuotient negative digits (tenTo (-e).toNat)

/-- The size of a finite number as a quotient. -/
def magnitude (x : Binary64) : Nat × Nat :=
  if 0 ≤ x.exponent then (x.significand * twoTo x.exponent.toNat, 1)
  else (x.significand, twoTo (-x.exponent).toNat)

/-- The integer part of a finite number, toward zero. -/
def truncate? (x : Binary64) : Option Int :=
  if x.isFinite then
    let n : Int := (x.magnitude.1 / x.magnitude.2 : Nat)
    some (if x.negative then -n else n)
  else none

/-- Whether a number equals an integer. -/
def equalsInteger (x : Binary64) (n : Int) : Bool :=
  x.isFinite && x.magnitude.1 % x.magnitude.2 == 0 && x.truncate? == some n

end Binary64

end Propositional
