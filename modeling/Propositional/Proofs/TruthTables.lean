import Propositional.Proofs.Samples
import Propositional.Semantics.TruthTable

/-!
# The rows of a truth table

The rows of a truth table count in binary. The variables stand in increasing order, and the values
that a row gives to them are the digits of the number of the row, the first variable having the
most significant one. As a number below two to the number of variables is known by its digits, every
assignment of values to the variables has its row, and no other. A row gives values to the variables
of all formulas, so every formula has a value in it.

## Main definitions

* `Valuation.digits`: the last binary digits of a number
* `TruthRow.ofValuation`: the row of a valuation, with the truth values of the formulas

## Main results

* `pairwise_sortNames`: names without repetition are put in strictly increasing order
* `Valuation.rows_eq_map_digits`: rows of truth values count in binary
* `Valuation.get?_of_getElem?_all`: the value of a name in the valuation of a given number
* `truthTable_eq_ok`: the truth table of formulas
* `truthTable_complete`: truth tables are complete and in order
-/

namespace Propositional

/-! ## Names in order -/

theorem perm_sortNames (names : List String) : (sortNames names).Perm names :=
  List.mergeSort_perm names _

/-- Names without repetition are put in strictly increasing order. -/
theorem pairwise_sortNames {names : List String} (h : names.Nodup) :
    (sortNames names).Pairwise (· < ·) := by
  have hle : (sortNames names).Pairwise fun a b => decide (a ≤ b) = true := by
    refine List.pairwise_mergeSort (fun a b c hab hbc => ?_) (fun a b => ?_) names
    · exact decide_eq_true (String.le_trans (of_decide_eq_true hab) (of_decide_eq_true hbc))
    · rw [Bool.or_eq_true, decide_eq_true_iff, decide_eq_true_iff]
      exact String.le_total a b
  have hne : (sortNames names).Pairwise (· ≠ ·) := (perm_sortNames names).nodup_iff.mpr h
  refine (hle.and hne).imp ?_
  rintro a b ⟨hab, hne⟩
  exact Std.lt_of_le_of_ne (of_decide_eq_true hab) hne

/-- Putting the names of formulas in order loses none and adds none. -/
theorem Formula.ListsNames.sortNames {names : List String} {fs : List Formula}
    (h : ListsNames names fs) : ListsNames (sortNames names) fs := by
  refine ⟨(perm_sortNames names).nodup_iff.mpr h.1, fun x => ?_⟩
  rw [(perm_sortNames names).mem_iff]
  exact h.2 x

/-! ## Counting in binary -/

namespace Valuation

variable {names : List String} {fs : List Formula} {v : Valuation} {i k m n : Nat} {x : String}

/-- The last `n` binary digits of a number, the most significant first. -/
def digits : Nat → Nat → List Bool
  | 0, _ => []
  | n + 1, i => i.testBit n :: digits n i

theorem length_digits (n i : Nat) : (digits n i).length = n := by
  induction n with
  | zero => rfl
  | succ n ih => rw [digits, List.length_cons, ih]

/-- The digits are numbered from the most significant on. -/
theorem getElem?_digits (hk : k < n) : (digits n i)[k]? = some (i.testBit (n - 1 - k)) := by
  induction n generalizing k with
  | zero => omega
  | succ n ih =>
    cases k with
    | zero => rfl
    | succ k =>
      rw [digits, List.getElem?_cons_succ, ih (by omega)]
      congr 2
      omega

/-- A power of two shows only in the digit that is its own. -/
theorem digits_two_pow_add (hn : n ≤ m) : digits n (2 ^ m + i) = digits n i := by
  induction n with
  | zero => rfl
  | succ n ih => rw [digits, digits, Nat.testBit_two_pow_add_gt hn, ih (Nat.le_of_succ_le hn)]

/-- Rows of truth values count in binary. -/
theorem rows_eq_map_digits (n : Nat) : rows n = (List.range (2 ^ n)).map (digits n) := by
  induction n with
  | zero => rfl
  | succ n ih =>
    -- the first half of the numbers have a zero in front, the second half a one
    have hlow : ∀ i ∈ List.range (2 ^ n), digits (n + 1) i = false :: digits n i := by
      intro i hi
      rw [digits, Nat.testBit_lt_two_pow (List.mem_range.mp hi)]
    have hhigh : ∀ i ∈ List.range (2 ^ n), digits (n + 1) (2 ^ n + i) = true :: digits n i := by
      intro i hi
      rw [digits, Nat.testBit_two_pow_add_eq, Nat.testBit_lt_two_pow (List.mem_range.mp hi),
        digits_two_pow_add (Nat.le_refl n)]
      rfl
    rw [rows, ih, Nat.pow_succ, Nat.mul_two, List.range_add, List.map_append, List.map_map,
      List.map_map, List.map_map, List.map_congr_left hlow]
    congr 1
    exact (List.map_congr_left hhigh).symm

/-- The valuation of a given number gives the names its digits. -/
theorem eq_zip_of_getElem?_all (h : names.Nodup) (hv : (all names)[i]? = some v) :
    v = names.zip (digits names.length i) := by
  rw [all, rows_eq_map_digits, List.map_map, List.getElem?_map, Option.map_eq_some_iff] at hv
  obtain ⟨j, hj, rfl⟩ := hv
  obtain ⟨hlt, rfl⟩ := List.getElem?_eq_some_iff.mp hj
  rw [List.getElem_range]
  exact ofPairs_zip h (length_digits _ _)

/-- The value of a name in the valuation of a given number is the digit in its place. -/
theorem get?_of_getElem?_all (h : names.Nodup) (hv : (all names)[i]? = some v)
    (hx : names[k]? = some x) : v.get? x = some (i.testBit (names.length - 1 - k)) := by
  rw [eq_zip_of_getElem?_all h hv]
  have hk := (List.getElem?_eq_some_iff.mp hx).1
  exact Table.get?_zip h (length_digits _ _) hx (getElem?_digits hk)

/-! ## Values of formulas -/

theorem valuesOf_eq_ok {w : String → Bool} (hw : v.AgreesWith w) (h : ∀ f ∈ fs, v.Covers f) :
    v.valuesOf fs = .ok (fs.map (Formula.holds w)) := by
  induction fs with
  | nil => rfl
  | cons f fs ih =>
    obtain ⟨hf, hfs⟩ := List.forall_mem_cons.mp h
    rw [valuesOf, Formula.evaluate_eq_holds hw hf, ih hfs]
    rfl

end Valuation

/-- The row of a valuation, with the truth values of the formulas. -/
def TruthRow.ofValuation (fs : List Formula) (v : Valuation) : TruthRow where
  valuation := v
  values := fs.map (Formula.holds v.total)

theorem truthRows_eq_ok {fs : List Formula} {vs : List Valuation}
    (h : ∀ v ∈ vs, ∀ f ∈ fs, v.Covers f) :
    truthRows fs vs = .ok (vs.map (TruthRow.ofValuation fs)) := by
  induction vs with
  | nil => rfl
  | cons v vs ih =>
    obtain ⟨hv, hvs⟩ := List.forall_mem_cons.mp h
    rw [truthRows, Valuation.valuesOf_eq_ok v.agreesWith_total hv, ih hvs]
    rfl

/-- The truth table of formulas has the row of each valuation of their variables. -/
theorem truthTable_eq_ok (fs : List Formula) :
    truthTable fs = .ok
      { vars := sortNames (Formula.varsOf fs)
        rows := (Valuation.all (sortNames (Formula.varsOf fs))).map (TruthRow.ofValuation fs) } := by
  have hvars := (Formula.listsNames_varsOf fs).sortNames
  rw [truthTable, truthRows_eq_ok]
  intro v hv
  exact Valuation.covers_of_listsNames hvars (Valuation.names_of_mem_all hvars.1 hv)

/-- Formulas have a truth table. Its variables are those of the formulas, in strictly increasing
order. There are two to their number rows, and every assignment of values to the variables has
exactly one of them. In the `i`-th row the `k`-th variable has the value of the `k`-th binary digit
of `i`, counted from the most significant, and every formula has the truth value that it has
wherever the variables have these values. -/
theorem truthTable_complete (fs : List Formula) :
    ∃ t, truthTable fs = .ok t ∧ t.vars.Pairwise (· < ·) ∧
      (∀ x, x ∈ t.vars ↔ ∃ f ∈ fs, x ∈ f.leaves) ∧
      t.rows.length = 2 ^ t.vars.length ∧
      (∀ v : Valuation, v.names = t.vars → (t.rows.map TruthRow.valuation).count v = 1) ∧
      ∀ (i : Nat) (row : TruthRow), t.rows[i]? = some row →
        row.valuation.names = t.vars ∧
        (∀ (k : Nat) (x : String), t.vars[k]? = some x →
          row.valuation.get? x = some (i.testBit (t.vars.length - 1 - k))) ∧
        ∀ w : String → Bool, row.valuation.AgreesWith w →
          row.values = fs.map (Formula.holds w) := by
  have hvars := (Formula.listsNames_varsOf fs).sortNames
  refine ⟨_, truthTable_eq_ok fs, pairwise_sortNames (Formula.listsNames_varsOf fs).1, hvars.2,
    ?_, fun v hv => ?_, fun i row hrow => ?_⟩
  · rw [List.length_map, Valuation.length_all]
  · -- a row is known by its valuation, and all valuations are listed once
    have hvaluations : ∀ vs : List Valuation,
        (vs.map (TruthRow.ofValuation fs)).map TruthRow.valuation = vs := by
      intro vs
      rw [List.map_map]
      exact List.map_id vs
    rw [hvaluations]
    exact List.count_eq_one_of_mem (Valuation.nodup_all hvars.1)
      ((Valuation.mem_all_iff hvars.1).mpr hv)
  · obtain ⟨v, hv, rfl⟩ := Option.map_eq_some_iff.mp (List.getElem?_map.symm.trans hrow)
    have hnames := Valuation.names_of_mem_all hvars.1 (List.mem_of_getElem? hv)
    refine ⟨hnames, fun k x hx => Valuation.get?_of_getElem?_all hvars.1 hv hx, fun w hw => ?_⟩
    -- all variables have values, so it does not matter what other names have
    have hcovers := Valuation.covers_of_listsNames hvars hnames
    refine List.map_congr_left fun f hf => ?_
    have hvalue := Formula.evaluate_eq_holds v.agreesWith_total (hcovers f hf)
    exact (Formula.holds_of_evaluate hw hvalue).symm

end Propositional
