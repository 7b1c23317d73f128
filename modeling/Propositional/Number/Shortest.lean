import Propositional.Number.Binary64

/-!
# The shortest decimal of a number

A finite number is written with the fewest digits that read back as the same number, and with
the nearest such digits where several are equally few; between two that are equally near, the
even ones. Numbers from a ten-thousandth up to ten to the sixteenth are written with a decimal
point, all others with a power of ten.

## Main definitions

* `Binary64.shortest`: the digits and the place of the point
* `Binary64.literal`: the written form
-/

namespace Propositional.Binary64

/-- The number of digits before the decimal point of a positive quotient; zero or less counts the
zeros behind the point. The search starts below every number of the format. -/
def pointOf (num den : Nat) : Int :=
  let n := num / den
  if n = 0 then
    match (List.range 330).find? fun k => den ≤ num * tenTo (k + 1) with
    | some k => -(k : Int)
    | none => -330
  else (Nat.toDigits 10 n).length

/-- The two decimals of `count` digits around a quotient that has its point at `point`: the
digits below and above it, and the power of ten that they count. -/
def neighbours (num den count : Nat) (point : Int) : Nat × Nat × Int :=
  let e := point - count
  let s := if 0 ≤ e then (num, den * tenTo e.toNat) else (num * tenTo (-e).toNat, den)
  (s.1 / s.2, (s.1 + s.2 - 1) / s.2, e)

/-- How far `digits * 10 ^ e` is from a quotient, in units of `1 / (den * 10 ^ (-e))`. -/
def gap (num den digits : Nat) (e : Int) : Nat :=
  let (a, b) :=
    if 0 ≤ e then (num, digits * tenTo e.toNat * den) else (num * tenTo (-e).toNat, digits * den)
  max a b - min a b

/-- Whether the smaller of two neighbours is taken: it is nearer, or as near and even. -/
def takesBelow (lo gapBelow gapAbove : Nat) : Bool :=
  decide (gapBelow < gapAbove) || (gapBelow == gapAbove && lo % 2 == 0)

/-- The digits of `count` places that read back as the number, the nearest if there are two. -/
def reading? (x : Binary64) (count : Nat) : Option (Nat × Int) :=
  let (num, den) := x.magnitude
  let (lo, hi, e) := neighbours num den count (pointOf num den)
  let same (d : Nat) : Bool := ofDecimal x.negative d e == x
  match same lo, same hi with
  | true, true => some (if takesBelow lo (gap num den lo e) (gap num den hi e) then lo else hi, e)
  | true, false => some (lo, e)
  | false, true => some (hi, e)
  | false, false => none

/-- The fewest digits that read back as a finite number, with the power of ten they count. -/
def shortest (x : Binary64) : Nat × Int :=
  if x.isZero then (0, 0)
  else ((List.range 17).findSome? fun k => x.reading? (k + 1)).getD (0, 0)

/-- Digits with the point after the first `point` of them. -/
def positional (ds : List Char) (point : Int) : List Char :=
  if point ≤ 0 then ['0', '.'] ++ List.replicate (-point).toNat '0' ++ ds
  else if ds.length ≤ point.toNat then
    ds ++ List.replicate (point.toNat - ds.length) '0' ++ ['.', '0']
  else ds.take point.toNat ++ ['.'] ++ ds.drop point.toNat

/-- One digit, the others behind a point, and a signed power of ten of at least two digits. -/
def scientific (ds : List Char) (power : Int) : List Char :=
  let body := match ds with
    | [] => ['0']
    | [d] => [d]
    | d :: rest => d :: '.' :: rest
  let p := Nat.toDigits 10 power.natAbs
  let p := List.replicate (2 - p.length) '0' ++ p
  body ++ ['e', if power < 0 then '-' else '+'] ++ p

/-- The digits without the zeros at their end. -/
def significant (ds : List Char) : List Char :=
  (ds.reverse.dropWhile (· == '0')).reverse

/-- The written form of a number. -/
def literal (x : Binary64) : String :=
  if x.isNaN then "nan"
  else
    let sign := if x.negative then "-" else ""
    if !x.isFinite then sign ++ "inf"
    else if x.isZero then sign ++ "0.0"
    else
      let (d, e) := x.shortest
      let ds := Nat.toDigits 10 d
      let point : Int := ds.length + e
      let ds := significant ds
      let body := if -4 < point ∧ point ≤ 16 then positional ds point
        else scientific ds (point - 1)
      sign ++ String.ofList body

end Propositional.Binary64
