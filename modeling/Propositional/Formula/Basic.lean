/-!
# Propositional formulas

Formulas are built from named variables by negation and four binary connectives. Equality is
structural and decidable; it is the only notion of sameness that rules and schemas use. A
variable whose name begins with a Greek letter is a metavariable: in a schema it stands for any
formula.

## Main definitions

* `Connective`, `Formula`: the syntax
* `Formula.height`: the height of the tree, by recursion
* `Formula.depth`: the same height, computed with a list of nodes still to visit
* `Formula.leaves`: the names at the leaves, from left to right
* `Formula.vars`, `Formula.metavariables`: the names in order of first occurrence
* `Formula.rank`: how tightly the outermost connective binds
-/

namespace Propositional

/-- The binary connectives. -/
inductive Connective where
  | and
  | or
  | imp
  | iff
deriving DecidableEq, Inhabited

/-- A propositional formula. -/
inductive Formula where
  | var (name : String)
  | neg (inner : Formula)
  | bin (op : Connective) (left right : Formula)
deriving DecidableEq, Inhabited

namespace Connective

/-- How tightly a connective binds; the higher the tighter. -/
def rank : Connective → Nat
  | .iff => 1
  | .imp => 2
  | .or => 3
  | .and => 4

/-- Whether a row of the same connective nests to the right. -/
def isRightAssociative : Connective → Bool
  | .imp => true
  | .iff => true
  | .and => false
  | .or => false

end Connective

namespace Formula

/-- The conjunction of two formulas. -/
@[match_pattern] abbrev and (a b : Formula) : Formula := .bin .and a b

/-- The disjunction of two formulas. -/
@[match_pattern] abbrev or (a b : Formula) : Formula := .bin .or a b

/-- The implication from one formula to another. -/
@[match_pattern] abbrev imp (a b : Formula) : Formula := .bin .imp a b

/-- The biconditional of two formulas. -/
@[match_pattern] abbrev iff (a b : Formula) : Formula := .bin .iff a b

/-- How tightly the outermost part of a formula binds: a variable tightest, then negation. -/
def rank : Formula → Nat
  | .var _ => 6
  | .neg _ => 5
  | .bin op _ _ => op.rank

/-! ## Height -/

/-- The height of the tree; a variable has height one. -/
def height : Formula → Nat
  | .var _ => 1
  | .neg f => 1 + f.height
  | .bin _ l r => 1 + max l.height r.height

/-- The number of nodes of the tree. -/
def size : Formula → Nat
  | .var _ => 1
  | .neg f => 1 + f.size
  | .bin _ l r => 1 + l.size + r.size

/-- The number of nodes of all trees still to visit. -/
def pendingSize : List (Formula × Nat) → Nat
  | [] => 0
  | p :: pending => p.1.size + pendingSize pending

/-- The greatest depth among the nodes still to visit, each listed with its depth, and `best`.
The node listed first is visited first and replaced by its children. -/
def depthFrom (best : Nat) : List (Formula × Nat) → Nat
  | [] => best
  | (.var _, d) :: pending => depthFrom (max best d) pending
  | (.neg f, d) :: pending => depthFrom (max best d) ((f, d + 1) :: pending)
  | (.bin _ l r, d) :: pending =>
    depthFrom (max best d) ((r, d + 1) :: (l, d + 1) :: pending)
termination_by pending => pendingSize pending
decreasing_by all_goals simp only [pendingSize, size]; omega

/-- The height of the tree, computed without recursion into it. -/
def depth (f : Formula) : Nat :=
  depthFrom 0 [(f, 1)]

/-! ## Names -/

/-- Whether a character is a Greek letter of the basic alphabet. -/
def isGreek (c : Char) : Bool :=
  (0x391 ≤ c.toNat && c.toNat ≤ 0x3A9) || (0x3B1 ≤ c.toNat && c.toNat ≤ 0x3C9)

/-- Whether a name begins with a Greek letter. -/
def isMetavariable (name : String) : Bool :=
  match name.toList with
  | [] => false
  | c :: _ => isGreek c

/-- The names at the leaves, from left to right, repetitions included. -/
def leaves : Formula → List String
  | .var name => [name]
  | .neg f => f.leaves
  | .bin _ l r => l.leaves ++ r.leaves

/-- Adds the names that `keep` admits to a list without repetitions, each where it first occurs. -/
def collect (keep : String → Bool) (seen : List String) : Formula → List String
  | .var name => if keep name && !seen.contains name then seen ++ [name] else seen
  | .neg f => f.collect keep seen
  | .bin _ l r => r.collect keep (l.collect keep seen)

/-- The names of the variables in order of first occurrence. -/
def vars (f : Formula) : List String :=
  f.collect (fun _ => true) []

/-- The names of the metavariables in order of first occurrence. -/
def metavariables (f : Formula) : List String :=
  f.collect isMetavariable []

/-- The names of the variables of several formulas in order of first occurrence. -/
def varsOf (fs : List Formula) : List String :=
  fs.foldl (fun seen f => f.collect (fun _ => true) seen) []

end Formula

end Propositional
