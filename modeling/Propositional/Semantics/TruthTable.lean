import Propositional.Semantics.Valuation

/-!
# Truth tables

The truth table of a list of formulas has a row for each valuation of their variables, which
stand in the order of their names.

## Main definitions

* `TruthTable`: variables and rows
* `truthTable`: the table of a list of formulas
-/

namespace Propositional

/-- A row of a truth table: a valuation and the values of the formulas under it. -/
structure TruthRow where
  valuation : Valuation
  values : List Bool
deriving DecidableEq, Inhabited

/-- A truth table. -/
structure TruthTable where
  vars : List String
  rows : List TruthRow
deriving DecidableEq, Inhabited

/-- Names in increasing order. -/
def sortNames (names : List String) : List String :=
  names.mergeSort fun a b => decide (a ≤ b)

/-- The values of formulas under a valuation. -/
def Valuation.valuesOf (v : Valuation) : List Formula → Except Undefined (List Bool)
  | [] => .ok []
  | f :: fs =>
    match f.evaluate v with
    | .error u => .error u
    | .ok b =>
      match valuesOf v fs with
      | .error u => .error u
      | .ok bs => .ok (b :: bs)

/-- The rows of formulas under a list of valuations. -/
def truthRows (fs : List Formula) : List Valuation → Except Undefined (List TruthRow)
  | [] => .ok []
  | v :: vs =>
    match v.valuesOf fs with
    | .error u => .error u
    | .ok values =>
      match truthRows fs vs with
      | .error u => .error u
      | .ok rows => .ok ({ valuation := v, values } :: rows)

/-- The truth table of a list of formulas. -/
def truthTable (fs : List Formula) : Except Undefined TruthTable :=
  let vars := sortNames (Formula.varsOf fs)
  match truthRows fs (Valuation.all vars) with
  | .error u => .error u
  | .ok rows => .ok { vars, rows }

end Propositional
