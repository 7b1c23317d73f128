import Propositional.Proof.Rule

/-!
# Contradictions

A contradiction among the lines of a proof is a line that joins a formula with its negation, or
two lines of which one is the negation of the other. A single line is preferred to a pair, and
the earliest to the later.

## Main definitions

* `Formula.isNegationOf`, `Formula.isAbsurd`: the two shapes
* `Lines.contradiction?`: the first contradiction among lines
-/

namespace Propositional

namespace Formula

/-- Whether a formula is the negation of another. -/
def isNegationOf (f g : Formula) : Bool :=
  match f with
  | .neg h => h == g
  | _ => false

/-- Whether a formula joins a formula with its negation, in either order. -/
def isAbsurd : Formula → Bool
  | .and l r => l.isNegationOf r || r.isNegationOf l
  | _ => false

/-- Whether one of two formulas is the negation of the other. -/
def clashes (f g : Formula) : Bool :=
  f.isNegationOf g || g.isNegationOf f

end Formula

namespace Lines

/-- The first line, from number `i` on, that is a contradiction by itself. -/
def absurd? (i : Nat) : Lines → Option Nat
  | [] => none
  | some f :: rest => if f.isAbsurd then some i else absurd? (i + 1) rest
  | none :: rest => absurd? (i + 1) rest

/-- The first line, from number `j` on, that clashes with a formula. -/
def clash? (f : Formula) (j : Nat) : Lines → Option Nat
  | [] => none
  | some g :: rest => if f.clashes g then some j else clash? f (j + 1) rest
  | none :: rest => clash? f (j + 1) rest

/-- The first pair of lines, from number `i` on, that clash. -/
def clashing? (i : Nat) : Lines → Option (Nat × Nat)
  | [] => none
  | some f :: rest =>
    match clash? f (i + 1) rest with
    | some j => some (i, j)
    | none => clashing? (i + 1) rest
  | none :: rest => clashing? (i + 1) rest

/-- The lines that witness a contradiction, counted from one: a single line twice, or a pair. -/
def contradiction? (lines : Lines) : Option (Nat × Nat) :=
  match absurd? 1 lines with
  | some i => some (i, i)
  | none => clashing? 1 lines

end Lines

end Propositional
