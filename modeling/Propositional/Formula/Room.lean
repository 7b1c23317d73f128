import Propositional.Formula.Reader

/-!
# Room for formulas

Reading a formula takes room for what is pending, and so does every later pass over it. A pass that
visits all parts puts one frame on the call stack for each level of the tree, and writing a formula
two. Comparing two formulas puts three there for each level on which they are looked at: one for the
formulas, one for the rows of their parts, and one for a pair of parts. The limit on the height of
formulas leaves ample room for all of them, unless it is set far above its default.

## Main definitions

* `Formula.fitsVisit`: whether there is room to visit all parts
* `Formula.fitsText`: whether there is room to write a formula
* `Formula.levels`: the levels that a comparison looks at
* `Effort`: what is done with formulas that takes room
-/

namespace Propositional

namespace Formula

/-- Whether there is room to visit all parts of a formula. -/
def fitsVisit (f : Formula) : Bool :=
  f.depth ≤ Reader.capacity

/-- Whether there is room to write a formula. -/
def fitsText (f : Formula) : Bool :=
  2 * f.depth ≤ Reader.capacity

/-- The levels on which two formulas are looked at to tell whether they are equal. Parts are only
looked at below equal connectives, and right sides only behind equal left sides. -/
def levels : Formula → Formula → Nat
  | .neg f, .neg g => 1 + levels f g
  | .bin op l r, .bin op' l' r' =>
    if op = op' then 1 + max (levels l l') (if l = l' then levels r r' else 0) else 1
  | _, _ => 1

/-- Whether there is room to compare two formulas. -/
def fitsComparison (f g : Formula) : Bool :=
  3 * levels f g ≤ Reader.capacity

end Formula

/-- Something that is done with formulas and takes room. -/
inductive Effort where
  | compare (f g : Formula)
  | write (f : Formula)
deriving DecidableEq, Inhabited

/-- Whether there is room for it. -/
def Effort.fits : Effort → Bool
  | .compare f g => f.fitsComparison g
  | .write f => f.fitsText

end Propositional
