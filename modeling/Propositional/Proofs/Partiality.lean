import Propositional.Proofs.Enumeration

/-!
# Partial valuations

Evaluation goes from left to right, and it looks at the right side of a connective only if the left
side leaves the value open. Which names are looked at thus depends on the values of names further
left. When all names have values, this is a list of names; under a valuation that gives values to
some names only, evaluation goes through the same list up to the first name without a value, and
reports that one. What has been passed over is not missed: a variable without a value is reported
only if it is looked at, and the value that is found instead is that of every completion.

## Main definitions

* `Connective.isSettledBy`: the right side makes no difference
* `Formula.consulted`: the names that are looked at, from left to right

## Main results

* `Formula.evaluate_eq_of_agreesWith`: evaluation ends at the first name without a value
* `Formula.evaluate_monotone`: further values change no value that was found
* `Formula.exists_error_iff_consulted`: which missing values are reported
-/

namespace Propositional

namespace Connective

/-- The value is the same whatever the right side is. -/
def isSettledBy (op : Connective) (a : Bool) : Bool :=
  op.apply a false == op.apply a true

/-- The left side decides the value exactly if the right side makes no difference. -/
theorem decided?_eq (op : Connective) (a : Bool) :
    op.decided? a = if op.isSettledBy a then some (op.apply a false) else none := by
  cases op <;> cases a <;> rfl

theorem apply_of_isSettledBy {op : Connective} {a : Bool} (h : op.isSettledBy a = true) (b : Bool) :
    op.apply a b = op.apply a false := by
  have hdecided : op.decided? a = some (op.apply a false) := by rw [decided?_eq, if_pos h]
  exact apply_of_decided? hdecided b

end Connective

namespace Formula

variable {f : Formula} {v : Valuation} {w : String → Bool} {x : String}

/-! ## The names that are looked at -/

/-- The names that are looked at when all names have values, from left to right. -/
def consulted (w : String → Bool) : Formula → List String
  | .var name => [name]
  | .neg f => f.consulted w
  | .bin op l r => l.consulted w ++ if op.isSettledBy (l.holds w) then [] else r.consulted w

theorem mem_leaves_of_mem_consulted (h : x ∈ f.consulted w) : x ∈ f.leaves := by
  induction f with
  | var name => exact h
  | neg f ih => exact ih h
  | bin op l r ihl ihr =>
    rw [consulted, List.mem_append] at h
    rw [leaves, List.mem_append]
    refine h.imp ihl fun hr => ?_
    split at hr
    · cases hr
    · exact ihr hr

/-- Evaluation goes through the names that would be looked at under any completion of the
valuation. It ends with an error at the first of them that has no value, and otherwise with the
truth value. -/
theorem evaluate_eq_of_agreesWith (hw : v.AgreesWith w) (f : Formula) :
    f.evaluate v =
      ((f.consulted w).find? fun x => !v.has x).elim (.ok (f.holds w)) fun x => .error ⟨x⟩ := by
  induction f with
  | var name =>
    rw [evaluate, consulted, List.find?_singleton, Table.has]
    cases hname : v.get? name with
    | none => rfl
    | some b => rw [holds, hw name b hname]; rfl
  | neg f ih =>
    rw [evaluate, ih, consulted, holds]
    cases (f.consulted w).find? fun x => !v.has x <;> rfl
  | bin op l r ihl ihr =>
    rw [evaluate, ihl, ihr, consulted, List.find?_append, holds]
    cases (l.consulted w).find? fun x => !v.has x with
    | some x => rfl
    | none =>
      -- the left side has its truth value, which says whether the right side is looked at
      simp only [Option.elim_none, Option.none_or, Connective.decided?_eq]
      by_cases hsettled : op.isSettledBy (l.holds w) = true
      · rw [if_pos hsettled, if_pos hsettled, Connective.apply_of_isSettledBy hsettled (r.holds w)]
        rfl
      · rw [if_neg hsettled, if_neg hsettled]
        cases (r.consulted w).find? fun x => !v.has x <;> rfl

/-- The name that is reported is the first one without a value among those that are looked at. -/
theorem evaluate_eq_error_iff (hw : v.AgreesWith w) {u : Undefined} :
    f.evaluate v = .error u ↔ (f.consulted w).find? (fun x => !v.has x) = some u.name := by
  rw [evaluate_eq_of_agreesWith hw]
  cases (f.consulted w).find? fun x => !v.has x with
  | none => simp
  | some x =>
    obtain ⟨name⟩ := u
    simp

theorem mem_vars : x ∈ f.vars ↔ x ∈ f.leaves := by
  simp [vars, mem_collect]

/-- What is reported is a variable of the formula that has no value. -/
theorem has_of_evaluate_eq_error {u : Undefined} (h : f.evaluate v = .error u) :
    u.name ∈ f.leaves ∧ v.has u.name = false := by
  have hfind := (evaluate_eq_error_iff v.agreesWith_total).mp h
  refine ⟨mem_leaves_of_mem_consulted (List.mem_of_find?_eq_some hfind), ?_⟩
  simpa using List.find?_some hfind

/-- A value that evaluation finds under a partial valuation is found under every valuation that
agrees with it wherever it gives a value. If a name is reported, it is the name of a variable
without a value. If all variables have values, the truth value is found. -/
theorem evaluate_monotone (f : Formula) (v : Valuation) :
    (∀ b, f.evaluate v = .ok b → ∀ v' : Valuation, v'.Extends v → f.evaluate v' = .ok b) ∧
    (∀ u, f.evaluate v = .error u → u.name ∈ f.vars ∧ v.has u.name = false) ∧
    ((∀ x ∈ f.vars, v.has x = true) →
      ∀ w : String → Bool, v.AgreesWith w → f.evaluate v = .ok (f.holds w)) := by
  refine ⟨fun b h v' hv' => evaluate_of_extends hv' h, fun u h => ?_, fun h w hw => ?_⟩
  · rw [mem_vars]
    exact has_of_evaluate_eq_error h
  · exact evaluate_eq_holds hw fun x hx => h x (mem_vars.mpr hx)

/-- A conjunction that its left side makes false stays false when its right side gets a value, and
one that its left side leaves open lacks the value of its right side. -/
theorem evaluate_monotone_samples :
    (and (var "A") (var "B")).evaluate [("B", true), ("A", false)] = .ok false ∧
    "B" ∈ (and (var "A") (var "B")).vars ∧
    (and (var "A") (var "B")).evaluate [("A", true), ("B", true)] = .ok true := by
  refine ⟨?_, ?_, ?_⟩
  · refine (evaluate_monotone _ [("A", false)]).1 false rfl _ fun x b h => ?_
    rw [Table.get?_cons] at h
    split at h
    · next hx =>
      rw [hx, ← h]
      rfl
    · cases h
  · exact ((evaluate_monotone _ [("A", true)]).2.1 ⟨"B"⟩ rfl).1
  · exact (evaluate_monotone _ [("A", true), ("B", true)]).2.2 (by decide) _
      (Valuation.agreesWith_total _)

/-! ## What is reported -/

theorem exists_error_iff (hw : v.AgreesWith w) :
    (∃ u, f.evaluate v = .error u) ↔ ∃ x ∈ f.consulted w, v.has x = false := by
  constructor
  · rintro ⟨u, hu⟩
    have hfind := (evaluate_eq_error_iff hw).mp hu
    exact ⟨u.name, List.mem_of_find?_eq_some hfind, by simpa using List.find?_some hfind⟩
  · rintro ⟨x, hx, hmissing⟩
    -- there is a name without a value, so there is a first one
    cases hfind : (f.consulted w).find? fun x => !v.has x with
    | none => simpa [hmissing] using List.find?_eq_none.mp hfind x hx
    | some y => exact ⟨⟨y⟩, (evaluate_eq_error_iff hw).mpr hfind⟩

/-- A variable without a value is reported exactly if one is looked at. So nothing is reported if
all variables have values, and if all variables are looked at, it is reported that one of them has
no value. -/
theorem exists_error_iff_consulted (f : Formula) (v : Valuation) (w : String → Bool)
    (hw : v.AgreesWith w) :
    ((∃ u, f.evaluate v = .error u) ↔ ∃ x ∈ f.consulted w, v.has x = false) ∧
    ((∃ u, f.evaluate v = .error u) → ∃ x ∈ f.vars, v.has x = false) ∧
    ((∀ x ∈ f.vars, x ∈ f.consulted w) →
      ((∃ u, f.evaluate v = .error u) ↔ ∃ x ∈ f.vars, v.has x = false)) := by
  have hmissing : (∃ u, f.evaluate v = .error u) → ∃ x ∈ f.vars, v.has x = false := by
    rintro ⟨u, hu⟩
    obtain ⟨hmem, hhas⟩ := has_of_evaluate_eq_error hu
    exact ⟨u.name, mem_vars.mpr hmem, hhas⟩
  refine ⟨exists_error_iff hw, hmissing, fun hall => ⟨hmissing, ?_⟩⟩
  rintro ⟨x, hx, hhas⟩
  exact (exists_error_iff hw).mpr ⟨x, hall x hx, hhas⟩

/-- Where the first side of a conjunction is true, and the conjunction is the first side of a
disjunction and false, all variables are looked at. -/
theorem exists_error_iff_consulted_sample :
    (∀ x ∈ (or (and (var "A") (var "B")) (var "C")).vars,
      x ∈ (or (and (var "A") (var "B")) (var "C")).consulted (Valuation.total [("A", true)])) ∧
    ∃ u, (or (and (var "A") (var "B")) (var "C")).evaluate [("A", true)] = .error u := by
  have hall : ∀ x ∈ (or (and (var "A") (var "B")) (var "C")).vars,
      x ∈ (or (and (var "A") (var "B")) (var "C")).consulted (Valuation.total [("A", true)]) := by
    decide
  have hreports := exists_error_iff_consulted (or (and (var "A") (var "B")) (var "C"))
    [("A", true)] _ (Valuation.agreesWith_total _)
  exact ⟨hall, (hreports.2.2 hall).mpr ⟨"C", by decide, rfl⟩⟩

/-- A variable that is passed over is not reported: a conjunction that its left side makes false is
false, though its right side has no value. -/
theorem evaluate_passed_over :
    (and (var "A") (var "B")).evaluate [("A", false)] = .ok false ∧
    ¬ ((∃ u, (and (var "A") (var "B")).evaluate [("A", false)] = .error u) ↔
      ∃ x ∈ (and (var "A") (var "B")).vars, Table.has [("A", false)] x = false) := by
  have hvalue : (and (var "A") (var "B")).evaluate [("A", false)] = .ok false := rfl
  refine ⟨hvalue, fun hreports => ?_⟩
  obtain ⟨u, hu⟩ := hreports.mpr ⟨"B", by decide, rfl⟩
  rw [hvalue] at hu
  cases hu

end Formula

end Propositional
