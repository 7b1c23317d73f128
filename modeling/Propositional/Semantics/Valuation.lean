import Propositional.Formula.Basic
import Propositional.Table

/-!
# Valuations and truth

A valuation gives truth values to some names. Under it a formula is true or false, or it is
undefined because a variable that has to be looked at has no value: of a conjunction,
disjunction or implication that its left side decides, the right side is not looked at.

## Main definitions

* `Valuation`: truth values of names
* `Formula.evaluate`: the truth value of a formula under a valuation
* `Formula.holds`: the truth value of a formula when every name has one
* `Valuation.all`: all valuations of a list of names
* `Valuation.sampled`: a sample of them, read off the bits of a counter
-/

namespace Propositional

/-- Truth values of names. -/
abbrev Valuation := Table Bool

/-- A variable without a value. -/
structure Undefined where
  name : String
deriving DecidableEq, Inhabited

/-- The missing value, in words. -/
def Undefined.message (u : Undefined) : String :=
  "valuation has no value for " ++ u.name

/-- The truth value of a connective. -/
def Connective.apply : Connective → Bool → Bool → Bool
  | .and, a, b => a && b
  | .or, a, b => a || b
  | .imp, a, b => !a || b
  | .iff, a, b => a == b

/-- The truth value of a connective as far as its left side decides it. -/
def Connective.decided? : Connective → Bool → Option Bool
  | .and, false => some false
  | .or, true => some true
  | .imp, false => some true
  | _, _ => none

namespace Formula

/-- The truth value of a formula when every name has one. -/
def holds (v : String → Bool) : Formula → Bool
  | .var name => v name
  | .neg f => !f.holds v
  | .bin op l r => op.apply (l.holds v) (r.holds v)

/-- The truth value of a formula under a valuation, read from left to right and no further than
needed. -/
def evaluate (v : Valuation) : Formula → Except Undefined Bool
  | .var name =>
    match v.get? name with
    | none => .error ⟨name⟩
    | some b => .ok b
  | .neg f =>
    match f.evaluate v with
    | .error u => .error u
    | .ok b => .ok !b
  | .bin op l r =>
    match l.evaluate v with
    | .error u => .error u
    | .ok a =>
      match op.decided? a with
      | some b => .ok b
      | none =>
        match r.evaluate v with
        | .error u => .error u
        | .ok b => .ok (op.apply a b)

end Formula

namespace Valuation

/-- All rows of `n` truth values, counting up from all false; the first is the most significant. -/
def rows : Nat → List (List Bool)
  | 0 => [[]]
  | n + 1 => (rows n).map (false :: ·) ++ (rows n).map (true :: ·)

/-- All valuations of a list of names, in the order of their rows. -/
def all (names : List String) : List Valuation :=
  (rows names.length).map fun bits => Table.ofPairs (names.zip bits)

/-- Why a sample cannot be taken. -/
inductive SampleError where
  /-- The counter has no bits. -/
  | noBits
  /-- The counter has fewer than no bits, and a bit before the first is asked for. -/
  | negativeBit
deriving DecidableEq, Inhabited

/-- The bit of the counter that the `i`-th name reads: its number modulo the width. -/
def bitOf (width : Int) (i : Nat) : Except SampleError Nat :=
  if width = 0 then .error .noBits
  else if Int.fmod i width < 0 then .error .negativeBit
  else .ok (Int.fmod i width).toNat

/-- The bits of the counter that the names from the `i`-th on read. -/
def bitsFrom (width : Int) (i : Nat) : List String → Except SampleError (List Nat)
  | [] => .ok []
  | _ :: names =>
    match bitOf width i with
    | .error e => .error e
    | .ok b =>
      match bitsFrom width (i + 1) names with
      | .error e => .error e
      | .ok bs => .ok (b :: bs)

/-- The valuation that a value of the counter gives. -/
def ofCounter (names : List String) (bits : List Nat) (counter : Nat) : Valuation :=
  Table.ofPairs (names.zip (bits.map counter.testBit))

/-- The valuations that the first values of a counter of the given width give. No samples ask for
no bits. -/
def sampled (names : List String) (samples width : Int) : Except SampleError (List Valuation) :=
  if samples ≤ 0 then .ok []
  else
    match bitsFrom width 0 names with
    | .error e => .error e
    | .ok bits => .ok ((List.range samples.toNat).map (ofCounter names bits))

end Valuation

end Propositional
